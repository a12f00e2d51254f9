import Mwan.L1Encoding.PacketDecode

/-!
# The layout of an accepted frame (`native/src/packet.rs:122-219`)

Results:
* `decode_layout`: an accepted frame has the layout its view claims, with
  every offset in bounds and the addresses, ports and header checksum where
  the edits write them.
* `decode_transfer`: `decode` reads the lengths, types and flags of a frame
  and never branches on its MACs, addresses, ports, hop limit or checksums: a
  frame that differs only there decodes to a view of the same shape.
-/
namespace Mwan.Native

open Mwan.Core Mwan.Core.Exec

variable (frame network : Bytes) (view : ParsedPacket)

/-- What an accepted frame's view says about the frame. -/
structure Layout (frame : Bytes) (view : ParsedPacket) : Prop where
  frameLength : view.frameLength = frame.length
  ethernetValid : view.ethernetValid = true
  networkOffset : 14 ≤ view.networkOffset
  transportOffset : view.transportOffset = view.networkOffset + view.ipHeaderLength
  captured : view.transportOffset + view.transportLength ≤ frame.length
  protocol : view.tuple.protocol = protocolTcp ∨ view.tuple.protocol = protocolUdp
  destinationMac : view.destinationMac = arrayAt 6 frame 0
  sourceMac : view.sourceMac = arrayAt 6 frame 6
  ports : view.ports = true → 4 ≤ view.transportLength ∧
    view.tuple.sourcePort = wordAt frame view.transportOffset ∧
    view.tuple.destinationPort = wordAt frame (view.transportOffset + 2)

/-- The IPv4 fields the edits read and write. -/
structure Ipv4Layout (frame : Bytes) (view : ParsedPacket) : Prop where
  header : 20 ≤ view.ipHeaderLength
  ttl : view.ttl = byteAt frame (view.networkOffset + 8)
  protocol : view.tuple.protocol = byteAt frame (view.networkOffset + 9)
  checksum : view.ipv4Checksum = wordAt frame (view.networkOffset + 10)
  source : head4 view.tuple.source = slice frame (view.networkOffset + 12) 4
  destination : head4 view.tuple.destination = slice frame (view.networkOffset + 16) 4

/-- The IPv6 fields the edits read and write. -/
structure Ipv6Layout (frame : Bytes) (view : ParsedPacket) : Prop where
  header : 40 ≤ view.ipHeaderLength
  ttl : view.ttl = byteAt frame (view.networkOffset + 7)
  source : view.tuple.source = arrayAt 16 frame (view.networkOffset + 8)
  destination : view.tuple.destination = arrayAt 16 frame (view.networkOffset + 24)

theorem head4_setPrefix (a : Addr) (head : Vector UInt8 4) :
    head4 (setPrefix a head) = head.toList := by
  apply List.ext_getElem?
  intro i
  unfold head4 setPrefix
  by_cases h : i < 4
  · simp [h]
  · simp [h]

/-- The stages of a successful `decode`. -/
structure Stages (frame : Bytes) (e : UInt16) (u m view : ParsedPacket) : Prop where
  ethernet : 14 ≤ frame.length
  vlan : decodeVlan frame MAX_VLAN_HEADERS (wordAt frame 12)
    (ethernetView frame { frameLength := frame.length }) = .ok e u
  network : u.networkOffset ≤ frame.length
  ip : decodeNetwork e (networkOf frame u) u m
  transport : decodeTransport frame (networkOf frame u) m = .ok () view

theorem decode_stages : decode frame = .ok view ↔ ∃ e u m, Stages frame e u m view := by
  have hdecode : decode frame = .ok view ↔
      decodeHeaders frame { frameLength := frame.length } = .ok () view := by
    unfold decode
    split <;> simp_all
  rw [hdecode, decodeHeaders_eq_ok]
  constructor
  · rintro ⟨h14, e, u, hv, hn, m, hi, ht⟩; exact ⟨e, u, m, h14, hv, hn, hi, ht⟩
  · rintro ⟨e, u, m, h14, hv, hn, hi, ht⟩; exact ⟨h14, e, u, hv, hn, m, hi, ht⟩

variable {frame network view} {e : UInt16} {u m : ParsedPacket}

/-- The network stage keeps the Ethernet fields and sets no ports. -/
theorem decodeNetwork_frame (h : decodeNetwork e network u m) :
    m.networkOffset = u.networkOffset ∧ m.frameLength = u.frameLength ∧
      m.ethernetValid = u.ethernetValid ∧ m.sourceMac = u.sourceMac ∧
      m.destinationMac = u.destinationMac ∧ m.ports = u.ports := by
  rcases h with ⟨-, h⟩ | ⟨-, h⟩
  · obtain ⟨-, rfl⟩ := (decodeIpv4_eq_ok ..).mp h
    exact ⟨rfl, rfl, rfl, rfl, rfl, rfl⟩
  · obtain ⟨-, h⟩ := (decodeIpv6_eq_ok ..).mp h
    obtain ⟨-, hw⟩ := decodeExtensions_frame _ _ (min_le_right _ _) _ _ _ h
    rw [hw]; exact ⟨rfl, rfl, rfl, rfl, rfl, rfl⟩

theorem Stages.layout (h : Stages frame e u m view) : Layout frame view := by
  obtain ⟨hle, hu⟩ := decodeVlan_frame _ _ _ _ _ _ h.vlan
  obtain ⟨h1, h2, h3, h4, h5, h6⟩ := decodeNetwork_frame h.ip
  have hw := decodeTransport_frame _ _ _ _ h.transport
  obtain ⟨hok, -⟩ := (decodeTransport_eq_ok ..).mp h.transport
  have hcap := hok.captured
  have hto : view.transportOffset = m.networkOffset + m.ipHeaderLength :=
    congrArg ParsedPacket.transportOffset hw
  have htl : view.transportLength = transportSize (networkOf frame u) m :=
    congrArg ParsedPacket.transportLength hw
  have hno : view.networkOffset = m.networkOffset := by rw [hw]
  have hih : view.ipHeaderLength = m.ipHeaderLength := by rw [hw]
  have hpr : view.tuple.protocol = m.tuple.protocol := congrArg (fun v => v.tuple.protocol) hw
  have h14 : 14 ≤ u.networkOffset := hle
  refine ⟨?_, ?_, by omega, by omega, by omega, by rw [hpr]; exact hok.protocol, ?_, ?_, ?_⟩
  · rw [congrArg ParsedPacket.frameLength hw, h2, hu]; rfl
  · rw [congrArg ParsedPacket.ethernetValid hw, h3, hu]; rfl
  · rw [congrArg ParsedPacket.destinationMac hw, h5, hu]; rfl
  · rw [congrArg ParsedPacket.sourceMac hw, h4, hu]; rfl
  · exact decodeTransport_ports _ _ _ _ h.transport (by rw [h6, hu]; rfl)

theorem length_networkOf (h : view.networkOffset ≤ frame.length) :
    (networkOf frame view).length = frame.length - view.networkOffset :=
  length_slice _ _ _ (by omega)

theorem arrayAt_networkOf (k i : Nat) (h : view.networkOffset + i + k ≤ frame.length) :
    arrayAt k (networkOf frame view) i = arrayAt k frame (view.networkOffset + i) :=
  arrayAt_slice _ _ _ _ _ (by omega)

section

variable (h : Stages frame e u m view)

include h

theorem Stages.ipv4 (hm : decodeIpv4 (networkOf frame u) u = .ok () m) :
    view.tuple.family = familyIpv4 ∧ Ipv4Layout frame view := by
  obtain ⟨hok, rfl⟩ := (decodeIpv4_eq_ok ..).mp hm
  have hw := decodeTransport_frame _ _ _ _ h.transport
  have hlen := length_networkOf h.network
  have hcap := hok.captured
  have hmin := hok.minimum
  rw [hw]
  refine ⟨rfl, hmin, ?_, ?_, ?_, ?_, ?_⟩
  · exact byteAt_slice _ _ _ _ (by omega)
  · exact byteAt_slice _ _ _ _ (by omega)
  · exact wordAt_slice _ _ _ _ (by omega)
  · rw [slice_eq_ofFn _ _ _ (by simp only [ipv4View]; omega)]
    exact (head4_setPrefix _ _).trans (congrArg _ (arrayAt_networkOf 4 12 (by omega)))
  · rw [slice_eq_ofFn _ _ _ (by simp only [ipv4View]; omega)]
    exact (head4_setPrefix _ _).trans (congrArg _ (arrayAt_networkOf 4 16 (by omega)))

theorem Stages.ipv6 (hm : decodeIpv6 (networkOf frame u) u = .ok () m) :
    view.tuple.family = familyIpv6 ∧ Ipv6Layout frame view := by
  obtain ⟨hok, hx⟩ := (decodeIpv6_eq_ok ..).mp hm
  obtain ⟨hle, hm'⟩ := decodeExtensions_frame _ _ (min_le_right _ _) _ _ _ hx
  have hw := decodeTransport_frame _ _ _ _ h.transport
  have hlen := length_networkOf h.network
  have hcap := hok.captured
  rw [hw, hm']
  refine ⟨rfl, hle, ?_, ?_, ?_⟩
  · exact byteAt_slice _ _ _ _ (by omega)
  · exact arrayAt_networkOf 16 8 (by omega)
  · exact arrayAt_networkOf 16 24 (by omega)

end

/-- An accepted frame has the layout its view claims. -/
theorem decode_layout (h : decode frame = .ok view) :
    Layout frame view ∧
      ((view.tuple.family = familyIpv4 ∧ Ipv4Layout frame view) ∨
        (view.tuple.family = familyIpv6 ∧ Ipv6Layout frame view)) := by
  obtain ⟨e, u, m, h⟩ := (decode_stages ..).mp h
  refine ⟨h.layout, ?_⟩
  rcases h.ip with ⟨-, hm⟩ | ⟨-, hm⟩
  · exact .inl (h.ipv4 hm)
  · exact .inr (h.ipv6 hm)

/-! ## What `decode` never branches on -/

/-- The view with its MACs, addresses, ports, hop limit and header checksum
blanked out. -/
def ParsedPacket.shape (view : ParsedPacket) : ParsedPacket :=
  { view with
    tuple := { view.tuple with
      source := Vector.replicate 16 0
      destination := Vector.replicate 16 0
      sourcePort := 0
      destinationPort := 0 }
    ttl := 0
    ipv4Checksum := 0
    sourceMac := Vector.replicate 6 0
    destinationMac := Vector.replicate 6 0 }

/-- The bytes that decide a frame's shape: EtherTypes, the network header up
to the hop limit and the protocol, extension headers and the TCP flags. -/
def Structural (view : ParsedPacket) (i : Nat) : Prop :=
  (12 ≤ i ∧ i < view.networkOffset) ∨
  (view.tuple.family = familyIpv4 ∧ view.networkOffset ≤ i ∧
    (i < view.networkOffset + 8 ∨ i = view.networkOffset + 9)) ∨
  (view.tuple.family = familyIpv6 ∧ view.networkOffset ≤ i ∧
    (i < view.networkOffset + 7 ∨ (view.networkOffset + 40 ≤ i ∧ i < view.transportOffset))) ∨
  i = view.transportOffset + 13

variable {frame' network' : Bytes} {view' w : ParsedPacket}

theorem decodeVlan_transfer (hl : frame.length = frame'.length)
    (remaining : Nat) (etherType e : UInt16) (view view' w : ParsedPacket)
    (h : decodeVlan frame remaining etherType view = .ok e w) (hs : view.shape = view'.shape)
    (ha : AgreeOn (fun i => view.networkOffset ≤ i ∧ i < w.networkOffset) frame frame') :
    ∃ w', decodeVlan frame' remaining etherType view' = .ok e w' ∧ w.shape = w'.shape := by
  induction remaining generalizing etherType view view' with
  | zero =>
    obtain ⟨hv, rfl, rfl⟩ | ⟨-, rest, hr, -⟩ := (decodeVlan_eq_ok ..).mp h
    · exact ⟨view', (decodeVlan_eq_ok ..).mpr (.inl ⟨hv, rfl, rfl⟩), hs⟩
    · omega
  | succ remaining ih =>
    obtain ⟨hv, rfl, rfl⟩ | ⟨hv, rest, hr, hb, hd⟩ := (decodeVlan_eq_ok ..).mp h
    · exact ⟨view', (decodeVlan_eq_ok ..).mpr (.inl ⟨hv, rfl, rfl⟩), hs⟩
    · obtain rfl : remaining = rest := by omega
      have hno : view'.networkOffset = view.networkOffset :=
        (congrArg ParsedPacket.networkOffset hs).symm
      have hle : view.networkOffset + 4 ≤ w.networkOffset := (decodeVlan_frame _ _ _ _ _ _ hd).1
      obtain ⟨w', hd', hw⟩ := ih _ (vlanView view) (vlanView view') hd (congrArg vlanView hs)
        (ha.mono fun i hi => ⟨by have := hi.1; simp only [vlanView] at this; omega, hi.2⟩)
      refine ⟨w', (decodeVlan_eq_ok ..).mpr (.inr ⟨hv, remaining, rfl, by omega, ?_⟩), hw⟩
      rw [hno, ← wordAt_agree ha _ (by omega) (by omega)]
      exact hd'

variable (frame network view)

theorem shape_ipv4View : (ipv4View network view).shape = (ipv4View network view.shape).shape := by
  simp only [ipv4View, ParsedPacket.shape]

theorem shape_ipv6View : (ipv6View network view).shape = (ipv6View network view.shape).shape := by
  simp only [ipv6View, ParsedPacket.shape]

theorem shape_extensionView :
    (extensionView network view).shape = extensionView network view.shape := by
  simp only [extensionView, extensionSize, ParsedPacket.shape]
  rfl

theorem shape_placedView : (placedView network view).shape = placedView network view.shape := by
  simp only [placedView, transportSize, ParsedPacket.shape]

theorem shape_portsView (frame' : Bytes) :
    (portsView frame view).shape = (portsView frame' view.shape).shape := by
  rw [portsView, portsView, apply_ite ParsedPacket.shape, apply_ite ParsedPacket.shape]
  rfl

theorem shape_flagsView : (flagsView frame view).shape = flagsView frame view.shape :=
  apply_ite ParsedPacket.shape ..

variable {frame network view}

theorem decodeIpv4_transfer (h : decodeIpv4 network view = .ok () w) (hs : view.shape = view'.shape)
    (ha : AgreeOn (fun i => i < 8 ∨ i = 9) network network') :
    ∃ w', decodeIpv4 network' view' = .ok () w' ∧ w.shape = w'.shape := by
  obtain ⟨hok, rfl⟩ := (decodeIpv4_eq_ok ..).mp h
  have b0 := byteAt_agree ha 0 (by omega)
  have b1 := byteAt_agree ha 1 (by omega)
  have w2 := wordAt_agree ha 2 (by omega) (by omega)
  have w6 := wordAt_agree ha 6 (by omega) (by omega)
  have b9 := byteAt_agree ha 9 (by omega)
  have hl : ipv4HeaderLength network = ipv4HeaderLength network' := by
    rw [ipv4HeaderLength, ipv4HeaderLength, b0]
  obtain ⟨hc, hv, hm, ht, hh⟩ := hok
  rw [ha.1] at hc hh
  rw [b0] at hv
  rw [hl] at hm ht hh
  rw [w2] at ht
  refine ⟨_, (decodeIpv4_eq_ok ..).mpr ⟨⟨hc, hv, hm, ht, hh⟩, rfl⟩, ?_⟩
  rw [shape_ipv4View, hs, shape_ipv4View network']
  simp only [ParsedPacket.shape, ipv4View, b1, w2, w6, b9, hl, ha.1]

theorem decodeExtensions_transfer (limit : Nat)
    (hlimit : limit ≤ network.length) (rounds : Nat) (view view' w : ParsedPacket)
    (h : decodeExtensions network limit rounds view = .ok () w) (hs : view.shape = view'.shape)
    (ha : AgreeOn (fun i => view.ipHeaderLength ≤ i ∧ i < w.ipHeaderLength) network network') :
    ∃ w', decodeExtensions network' limit rounds view' = .ok () w' ∧ w.shape = w'.shape := by
  have hlimit' : limit ≤ network'.length := ha.1 ▸ hlimit
  induction rounds generalizing view view' with
  | zero =>
    obtain ⟨-, rfl⟩ := (pure_eq_ok ..).mp h
    exact ⟨view', (pure_eq_ok ..).mpr ⟨rfl, rfl⟩, hs⟩
  | succ rounds ih =>
    have hpr : view'.tuple.protocol = view.tuple.protocol :=
      (congrArg (fun v : ParsedPacket => v.tuple.protocol) hs).symm
    have hih : view'.ipHeaderLength = view.ipHeaderLength :=
      (congrArg ParsedPacket.ipHeaderLength hs).symm
    obtain ⟨hx, rfl⟩ | ⟨hx, hroom, hd⟩ := (decodeExtensions_succ_eq_ok _ _ _ hlimit _ _).mp h
    · exact ⟨view', (decodeExtensions_succ_eq_ok _ _ _ hlimit' _ _).mpr
        (.inl ⟨by rw [hpr]; exact hx, rfl⟩), hs⟩
    · -- the next header starts behind this one, and this one is at least eight bytes
      have h8 := extensionSize_ge network view
      have hnext : view.ipHeaderLength + extensionSize network view ≤ w.ipHeaderLength := by
        split at hd
        · rw [hd]; exact le_refl _
        · exact (decodeExtensions_frame _ _ hlimit _ _ _ hd).1
      have b0 := byteAt_agree ha view.ipHeaderLength (by omega)
      have b1 := byteAt_agree ha (view.ipHeaderLength + 1) (by omega)
      have w2 := wordAt_agree ha (view.ipHeaderLength + 2) (by omega) (by omega)
      have hsize : extensionSize network' view' = extensionSize network view := by
        simp only [extensionSize, hpr, hih, b1]
      have hview : (extensionView network view).shape = (extensionView network' view').shape := by
        rw [shape_extensionView, hs, shape_extensionView]
        have hi : view'.shape.ipHeaderLength = view.ipHeaderLength := hih
        simp only [extensionView, extensionSize, hi, b0, b1, w2]
      have hf : (extensionView network' view').noninitialFragment =
          (extensionView network view).noninitialFragment :=
        (congrArg ParsedPacket.noninitialFragment hview).symm
      have hstep := fun w' => (decodeExtensions_succ_eq_ok network' limit rounds hlimit' view' w').mpr
      rw [hpr, hih, hsize, hf] at hstep
      split at hd
      · next hn =>
        subst hd
        refine ⟨_, hstep _ (.inr ⟨hx, hroom, ?_⟩), hview⟩
        rw [if_pos hn]
      · next hn =>
        obtain ⟨w', hd', hw⟩ := ih _ _ hd hview (ha.mono fun i hi => ⟨by
          have := hi.1; simp only [extensionView] at this; omega, hi.2⟩)
        refine ⟨w', hstep w' (.inr ⟨hx, hroom, ?_⟩), hw⟩
        rw [if_neg hn]; exact hd'

theorem decodeIpv6_transfer (h : decodeIpv6 network view = .ok () w) (hs : view.shape = view'.shape)
    (ha : AgreeOn (fun i => i < 7 ∨ (40 ≤ i ∧ i < w.ipHeaderLength)) network network') :
    ∃ w', decodeIpv6 network' view' = .ok () w' ∧ w.shape = w'.shape := by
  obtain ⟨⟨hc, hv⟩, hx⟩ := (decodeIpv6_eq_ok ..).mp h
  have b0 := byteAt_agree ha 0 (by omega)
  have b1 := byteAt_agree ha 1 (by omega)
  have b2 := byteAt_agree ha 2 (by omega)
  have b3 := byteAt_agree ha 3 (by omega)
  have w4 := wordAt_agree ha 4 (by omega) (by omega)
  have b6 := byteAt_agree ha 6 (by omega)
  have hview : (ipv6View network view).shape = (ipv6View network' view').shape := by
    rw [shape_ipv6View, hs, shape_ipv6View network']
    simp only [ParsedPacket.shape, ipv6View, b0, b1, b2, b3, w4, b6, ha.1]
  have hlim : ipv6Limit network' = ipv6Limit network := by
    simp only [ipv6Limit, w4, ha.1]
  obtain ⟨w', hx', hw⟩ := decodeExtensions_transfer _ (min_le_right _ _) _ _ _ _ hx hview
    (ha.mono fun i hi => .inr hi)
  refine ⟨w', (decodeIpv6_eq_ok ..).mpr ⟨⟨ha.1 ▸ hc, b0 ▸ hv⟩, ?_⟩, hw⟩
  rw [hlim]; exact hx'

theorem decodeTransport_transfer (h : decodeTransport frame network view = .ok () w)
    (hs : view.shape = view'.shape) (hf : frame.length = frame'.length)
    (hn : network.length = network'.length)
    (hb : byteAt frame (w.transportOffset + 13) = byteAt frame' (w.transportOffset + 13)) :
    ∃ w', decodeTransport frame' network' view' = .ok () w' ∧ w.shape = w'.shape := by
  have hto : w.transportOffset = view.networkOffset + view.ipHeaderLength := by
    rw [decodeTransport_frame _ _ _ _ h]
  obtain ⟨hok, rfl⟩ := (decodeTransport_eq_ok ..).mp h
  have hplaced : (placedView network view).shape = (placedView network' view').shape := by
    rw [shape_placedView, hs, shape_placedView network']
    simp only [placedView, transportSize, hn]
  have hports : (portsView frame (placedView network view)).shape =
      (portsView frame' (placedView network' view')).shape := by
    rw [shape_portsView frame _ frame', hplaced, ← shape_portsView]
  refine ⟨_, (decodeTransport_eq_ok ..).mpr ⟨?_, rfl⟩, ?_⟩
  · have hok' : TransportOk frame network view.shape := { hok with }
    rw [hs, transportOk_iff, transportSize, hn, hf] at hok'
    exact ⟨hok'.1, hok'.2.1, hok'.2.2.1, hok'.2.2.2⟩
  · have hto' : (portsView frame' (placedView network' view')).shape.transportOffset =
        view.networkOffset + view.ipHeaderLength := by
      rw [← hports, portsView]; split <;> rfl
    rw [shape_flagsView, shape_flagsView, hports]
    unfold flagsView
    rw [hto', ← hto, hb]

/-- A frame that agrees with an accepted one on its structural bytes decodes
to a view of the same shape. -/
theorem decode_transfer (h : decode frame = .ok view) (ha : AgreeOn (Structural view) frame frame') :
    ∃ view', decode frame' = .ok view' ∧ view.shape = view'.shape := by
  obtain ⟨e, u, m, hst⟩ := (decode_stages ..).mp h
  have hw := decodeTransport_frame _ _ _ _ hst.transport
  have hno : view.networkOffset = u.networkOffset := by
    rw [hw]; exact (decodeNetwork_frame hst.ip).1
  have hto : view.transportOffset = m.networkOffset + m.ipHeaderLength := by rw [hw]
  have hih : view.ipHeaderLength = m.ipHeaderLength := by rw [hw]
  have h14 := (decode_layout h).1.networkOffset
  obtain ⟨u', hvlan, hu⟩ := decodeVlan_transfer ha.1 _ _ _ _
    (ethernetView frame' { frameLength := frame'.length }) _ hst.vlan (by
      rw [← ha.1]
      simp only [ethernetView, ParsedPacket.shape, wordAt_agree ha 12 (by unfold Structural; omega)
        (by unfold Structural; omega)])
    (ha.mono fun i hi => .inl ⟨by have : 14 ≤ i := hi.1; omega, by omega⟩)
  have hno' : u'.networkOffset = u.networkOffset := (congrArg ParsedPacket.networkOffset hu).symm
  have hnet : AgreeOn (fun i => Structural view (u.networkOffset + i)) (networkOf frame u)
      (networkOf frame' u') := by
    unfold networkOf
    rw [hno', ← ha.1]
    exact ha.of_slice _ _
  have hip : ∃ m', decodeNetwork e (networkOf frame' u') u' m' ∧ m.shape = m'.shape := by
    rcases hst.ip with ⟨he, hm⟩ | ⟨he, hm⟩
    · have hfam := (hst.ipv4 hm).1
      obtain ⟨m', hm', hs⟩ := decodeIpv4_transfer hm hu
        (hnet.mono fun i hi => .inr (.inl ⟨hfam, by omega, by omega⟩))
      exact ⟨m', .inl ⟨he, hm'⟩, hs⟩
    · have hfam := (hst.ipv6 hm).1
      have hmn := (decodeNetwork_frame hst.ip).1
      obtain ⟨m', hm', hs⟩ := decodeIpv6_transfer hm hu
        (hnet.mono fun i hi => .inr (.inr (.inl ⟨hfam, by omega, by omega⟩)))
      exact ⟨m', .inr ⟨he, hm'⟩, hs⟩
  obtain ⟨m', hip', hm⟩ := hip
  obtain ⟨view', ht, hs⟩ := decodeTransport_transfer hst.transport hm ha.1 hnet.1
    (byteAt_agree ha _ (by unfold Structural; omega))
  have h14' : 14 ≤ frame'.length := ha.1 ▸ hst.ethernet
  refine ⟨view', (decode_stages ..).mpr ⟨e, u', m', h14', ?_, ?_, hip', ht⟩, hs⟩
  · rw [← wordAt_agree ha 12 (by unfold Structural; omega) (by unfold Structural; omega)]
    exact hvlan
  · rw [hno', ← ha.1]; exact hst.network

end Mwan.Native
