import XrceDds.Lib.StreamDecoder
import XrceDds.Transport.FramedWrite

/-!
# What a line of frames says

A line carries frames and, between them, anything: noise, frames for others, frames that were cut.
`FrameScan` reads such a line a byte at a time, with no ring, no calls and no reads of a transport.
A begin flag starts a frame wherever it stands, so a complete frame is decoded whatever was before
it (`decodes_frame`), and what is decoded besides lies between a begin flag and the next one
(`liesIn_of_decoded`).  Together they say what is decoded from a line (`received_wire`). -/

namespace XrceDds

open StreamDecoder

/-- A message of a frame: the address that it comes from, and the payload. -/
structure FrameMessage where
  remoteAddr : UInt8
  payload : List UInt8
  deriving DecidableEq, Repr

/-- What was read of a frame.  A payload that is complete waits for the checksum. -/
inductive FrameScan where
  | hunt
  | srcAddr
  | dstAddr (src : UInt8)
  | lenLsb (src : UInt8)
  | lenMsb (src lsb : UInt8)
  | payload (src : UInt8) (msgLen : UInt16) (octets : List UInt8)
  | crcMsb (src : UInt8) (octets : List UInt8) (lsb : UInt8)
  deriving DecidableEq

/-- A number of two octets. -/
def twoOctets (lsb msb : UInt8) : UInt16 := lsb.toUInt16 + (msb.toUInt16 <<< 8)

/-- An octet of a frame.  Frames for other addresses and frames that are longer than `len` are left,
and an empty message is none. -/
def FrameScan.octet (localAddr : UInt8) (len : ℕ) : FrameScan → UInt8 → FrameScan × Option
    FrameMessage
  | .hunt, _ => (.hunt, none)
  | .srcAddr, octet => (.dstAddr octet, none)
  | .dstAddr src, octet => (if octet = localAddr then .lenLsb src else .hunt, none)
  | .lenLsb src, octet => (.lenMsb src octet, none)
  | .lenMsb src lsb, octet =>
    (if len < (twoOctets lsb octet).toNat then .hunt else .payload src (twoOctets lsb octet) [],
      none)
  | .payload src msgLen octets, octet =>
    (if octets.length < msgLen.toNat then .payload src msgLen (octets ++ [octet])
      else .crcMsb src octets octet, none)
  | .crcMsb src octets lsb, octet =>
    (.hunt, if octets.foldl updateCrc 0 = twoOctets lsb octet ∧ octets ≠ [] then some ⟨src, octets⟩
      else none)

/-- A byte of the line, behind an escape flag or not. -/
def FrameScan.feed (localAddr : UInt8) (len : ℕ) :
    FrameScan × Bool → UInt8 → (FrameScan × Bool) × Option FrameMessage
  | (.hunt, _), byte => (if byte = framingBeginFlag then (.srcAddr, false) else (.hunt, false),
    none)
  | (scan, escaped), byte =>
    if byte = framingBeginFlag then ((.srcAddr, false), none)
    else if escaped then
      (((scan.octet localAddr len (byte ^^^ framingXorFlag)).1, false),
        (scan.octet localAddr len (byte ^^^ framingXorFlag)).2)
    else if byte = framingEscFlag then ((scan, true), none)
    else (((scan.octet localAddr len byte).1, false), (scan.octet localAddr len byte).2)

/-- Bytes without a begin flag that stand for octets. -/
inductive Unstuffs : List UInt8 → List UInt8 → Prop
  | nil : Unstuffs [] []
  | plain {bytes octets : List UInt8} {byte : UInt8} : Unstuffs bytes octets →
      byte ≠ framingBeginFlag → byte ≠ framingEscFlag → Unstuffs (bytes ++ [byte])
        (octets ++ [byte])
  | escaped {bytes octets : List UInt8} {byte : UInt8} : Unstuffs bytes octets →
      byte ≠ framingBeginFlag →
        Unstuffs (bytes ++ [framingEscFlag, byte]) (octets ++ [byte ^^^ framingXorFlag])

/-- A message lies in bytes: behind a begin flag stand the octets of a frame for the address, with
the checksum of the payload, and no other begin flag. -/
def FrameMessage.LiesIn (localAddr : UInt8) (bytes : List UInt8) (m : FrameMessage) : Prop :=
  m.payload ≠ [] ∧ ∃ before within behind lsb msb, bytes =
    before ++ framingBeginFlag :: within ++ behind ∧
    (twoOctets lsb msb).toNat = m.payload.length ∧
    Unstuffs within ([m.remoteAddr, localAddr, lsb, msb] ++ framedOctets m.payload)

/-- A line: noise, and complete frames for the address with noise behind each. -/
def wire (localAddr : UInt8) (noise : List UInt8) (sent : List (FrameMessage × List UInt8)) :
    List UInt8 :=
  noise ++ sent.flatMap fun x => frame x.1.remoteAddr localAddr x.1.payload ++ x.2

/-- What is received of a line: the message of every frame once, in order, and besides only what
lies in the noise. -/
def ReceivedFrames (localAddr : UInt8) (noise : List UInt8) :
    List (FrameMessage × List UInt8) → List FrameMessage → Prop
  | [], returned => ∀ m ∈ returned, m.LiesIn localAddr noise
  | (sent, noise') :: rest, returned => ∃ before behind, returned = before ++ sent :: behind ∧
      (∀ m ∈ before, m.LiesIn localAddr noise) ∧ ReceivedFrames localAddr noise' rest behind

/-- A payload that is sent, and that a reader with a buffer of `len` bytes takes. -/
structure FrameMessage.Fits (len : ℕ) (m : FrameMessage) : Prop where
  nonempty : m.payload ≠ []
  length_le : m.payload.length ≤ len
  length_lt : m.payload.length < 65536

/-! ## Two octets -/

/-- The value of two octets. -/
lemma toNat_twoOctets (lsb msb : UInt8) :
    (twoOctets lsb msb).toNat = lsb.toNat + 256 * msb.toNat := by
  have h := lsb.toNat_lt
  have h' := msb.toNat_lt
  unfold twoOctets
  rw [UInt16.toNat_add, UInt16.toNat_shiftLeft, UInt8.toNat_toUInt16, UInt8.toNat_toUInt16]
  have : (8 : UInt16).toNat % 16 = 8 := by decide
  rw [this, Nat.shiftLeft_eq]
  omega

/-- The length of a payload, in two octets. -/
lemma twoOctets_ofNat {n : ℕ} (h : n < 65536) :
    (twoOctets (UInt8.ofNat n) (UInt8.ofNat (n / 256))).toNat = n := by
  rw [toNat_twoOctets, UInt8.toNat_ofNat', UInt8.toNat_ofNat']
  omega

/-- A checksum, in two octets. -/
lemma twoOctets_tmpCrc (crc : UInt16) : twoOctets crc.toUInt8 (crc >>> 8).toUInt8 = crc := by
  have h := crc.toNat_lt
  apply UInt16.toNat_inj.mp
  have hshift : (crc >>> 8).toNat = crc.toNat / 256 := by
    rw [UInt16.toNat_shiftRight]
    exact Nat.shiftRight_eq_div_pow _ 8
  rw [toNat_twoOctets, UInt16.toNat_toUInt8, UInt16.toNat_toUInt8, hshift]
  omega

/-- Two octets, as a checksum. -/
lemma tmpCrc_twoOctets (lsb msb : UInt8) : tmpCrc (twoOctets lsb msb) = [lsb, msb] := by
  have h := lsb.toNat_lt
  have h' := msb.toNat_lt
  have hshift : (twoOctets lsb msb >>> 8).toNat = (twoOctets lsb msb).toNat / 256 := by
    rw [UInt16.toNat_shiftRight]
    exact Nat.shiftRight_eq_div_pow _ 8
  unfold tmpCrc
  congr 1
  · apply UInt8.toNat_inj.mp
    rw [UInt16.toNat_toUInt8, toNat_twoOctets]
    omega
  · congr 1
    apply UInt8.toNat_inj.mp
    rw [UInt16.toNat_toUInt8, hshift, toNat_twoOctets]
    omega

namespace FrameScan

variable {localAddr : UInt8} {len : ℕ}

/-! ## Bytes and octets -/

/-- A begin flag starts a frame. -/
lemma feed_begin (localAddr : UInt8) (len : ℕ) (s : FrameScan × Bool) :
    feed localAddr len s framingBeginFlag = ((.srcAddr, false), none) := by
  obtain ⟨scan, escaped⟩ := s
  cases scan <;> rfl

/-- A byte that stands for itself. -/
lemma feed_plain {scan : FrameScan} {byte : UInt8} (hscan : scan ≠ .hunt)
    (hbegin : byte ≠ framingBeginFlag) (hesc : byte ≠ framingEscFlag) :
    feed localAddr len (scan, false) byte =
      (((scan.octet localAddr len byte).1, false), (scan.octet localAddr len byte).2) := by
  cases scan with
  | hunt => exact absurd rfl hscan
  | _ => exact (if_neg hbegin).trans ((if_neg Bool.false_ne_true).trans (if_neg hesc))

/-- An escape flag waits for the next byte. -/
lemma feed_esc {scan : FrameScan} (hscan : scan ≠ .hunt) :
    feed localAddr len (scan, false) framingEscFlag = ((scan, true), none) := by
  cases scan with
  | hunt => exact absurd rfl hscan
  | _ => rfl

/-- A byte behind an escape flag. -/
lemma feed_escaped {scan : FrameScan} {byte : UInt8} (hscan : scan ≠ .hunt)
    (hbegin : byte ≠ framingBeginFlag) :
    feed localAddr len (scan, true) byte =
      (((scan.octet localAddr len (byte ^^^ framingXorFlag)).1, false),
        (scan.octet localAddr len (byte ^^^ framingXorFlag)).2) := by
  cases scan with
  | hunt => exact absurd rfl hscan
  | _ => exact (if_neg hbegin).trans (if_pos rfl)

/-- An octet, as it is written in a frame. -/
lemma decodes_stuff (localAddr : UInt8) (len : ℕ) (scan : FrameScan) (hscan : scan ≠ .hunt)
    (octet : UInt8) :
    Decodes (feed localAddr len) (scan, false) (stuff octet)
      ((scan.octet localAddr len octet).1, false) (scan.octet localAddr len octet).2.toList := by
  unfold stuff
  split
  · next hflag =>
    have hne : octet ^^^ framingXorFlag ≠ framingBeginFlag := by
      rcases hflag with rfl | rfl <;> decide
    have hback : octet ^^^ framingXorFlag ^^^ framingXorFlag = octet := by
      rcases hflag with rfl | rfl <;> decide
    have hsecond : Decodes (feed localAddr len) (scan, true) [octet ^^^ framingXorFlag] _ _ :=
      .single (feed_escaped hscan hne)
    rw [hback] at hsecond
    exact (Decodes.single (feed_esc hscan)).append hsecond
  · next hflag =>
    obtain ⟨hbegin, hesc⟩ := not_or.mp hflag
    exact .single (feed_plain hscan hbegin hesc)

/-! ## Frames -/

/-- The octets of a payload. -/
lemma decodes_payload (localAddr : UInt8) (len : ℕ) (src : UInt8) (msgLen : UInt16)
    (octets rest : List UInt8) (hle : octets.length + rest.length ≤ msgLen.toNat) :
    Decodes (feed localAddr len) (.payload src msgLen octets, false) (rest.flatMap stuff)
      (.payload src msgLen (octets ++ rest), false) [] := by
  induction rest generalizing octets with
  | nil =>
    rw [List.append_nil]
    exact .nil _
  | cons octet rest ih =>
    rw [List.length_cons] at hle
    have hfirst : Decodes (feed localAddr len) (.payload src msgLen octets, false) (stuff octet)
        (.payload src msgLen (octets ++ [octet]), false) [] := by
      have hstuff := decodes_stuff localAddr len (.payload src msgLen octets) nofun octet
      rw [FrameScan.octet, if_pos (by omega)] at hstuff
      exact hstuff
    have hrest := ih (octets ++ [octet]) (by rw [List.length_append]; simp; omega)
    rw [List.append_assoc] at hrest
    exact hfirst.append hrest

/-- A complete frame for the address is decoded, whatever was before it. -/
theorem decodes_frame (localAddr : UInt8) (s : FrameScan × Bool) {m : FrameMessage}
    (hfits : m.Fits len) :
    Decodes (feed localAddr len) s (frame m.remoteAddr localAddr m.payload) (.hunt, false) [m] := by
  obtain ⟨src, buf⟩ := m
  obtain ⟨hne, hle, hlt⟩ := hfits
  obtain ⟨lsb, hlsb⟩ : ∃ lsb, lsb = UInt8.ofNat buf.length := ⟨_, rfl⟩
  obtain ⟨msb, hmsb⟩ : ∃ msb, msb = UInt8.ofNat (buf.length / 256) := ⟨_, rfl⟩
  obtain ⟨crc, hcrc⟩ : ∃ crc, crc = buf.foldl updateCrc 0 := ⟨_, rfl⟩
  have hlength : (twoOctets lsb msb).toNat = buf.length := hlsb ▸ hmsb ▸ twoOctets_ofNat hlt
  -- the header
  have hbegin := Decodes.single (feed_begin localAddr len s)
  have hsrc := decodes_stuff localAddr len .srcAddr nofun src
  have hdst := decodes_stuff localAddr len (.dstAddr src) nofun localAddr
  rw [octet, if_pos rfl] at hdst
  have hlenLsb := decodes_stuff localAddr len (.lenLsb src) nofun lsb
  have hlenMsb := decodes_stuff localAddr len (.lenMsb src lsb) nofun msb
  rw [octet, if_neg (by rw [hlength]; exact Nat.not_lt.mpr hle)] at hlenMsb
  -- the payload, and the checksum behind it
  have hpayload := decodes_payload localAddr len src (twoOctets lsb msb) [] buf
    (by rw [hlength, List.length_nil, Nat.zero_add])
  have hcrcLsb := decodes_stuff localAddr len (.payload src (twoOctets lsb msb) buf) nofun
    crc.toUInt8
  rw [octet, if_neg (by rw [hlength]; exact Nat.lt_irrefl _)] at hcrcLsb
  have hcrcMsb := decodes_stuff localAddr len (.crcMsb src buf crc.toUInt8) nofun
    (crc >>> 8).toUInt8
  rw [octet, if_pos ⟨by rw [twoOctets_tmpCrc, hcrc], hne⟩] at hcrcMsb
  have hall := hbegin.append (hsrc.append (hdst.append (hlenLsb.append (hlenMsb.append
    (hpayload.append (hcrcLsb.append hcrcMsb))))))
  have hframe : frame src localAddr buf = [framingBeginFlag] ++ (stuff src ++ (stuff localAddr ++
      (stuff lsb ++ (stuff msb ++ (buf.flatMap stuff ++ (stuff crc.toUInt8 ++
        stuff (crc >>> 8).toUInt8)))))) := by
    simp [frame, framedOctets, tmpCrc, ← hlsb, ← hmsb, ← hcrc]
  rw [hframe]
  exact hall

/-! ## Noise -/

/-- The octets behind the last begin flag. -/
def Shows (localAddr : UInt8) : FrameScan → List UInt8 → Prop
  | .hunt, _ => True
  | .srcAddr, octets => octets = []
  | .dstAddr src, octets => octets = [src]
  | .lenLsb src, octets => octets = [src, localAddr]
  | .lenMsb src lsb, octets => octets = [src, localAddr, lsb]
  | .payload src msgLen buf, octets => ∃ lsb msb, msgLen = twoOctets lsb msb ∧
      buf.length ≤ msgLen.toNat ∧ octets = [src, localAddr, lsb, msb] ++ buf
  | .crcMsb src buf crcLsb, octets => ∃ lsb msb, (twoOctets lsb msb).toNat = buf.length ∧
      octets = [src, localAddr, lsb, msb] ++ (buf ++ [crcLsb])

/-- What the bytes fed so far say about a frame that is read. -/
def Behind (localAddr : UInt8) (s : FrameScan × Bool) (fed : List UInt8) : Prop :=
  s.1 = .hunt ∨ ∃ before within octets, Unstuffs within octets ∧ s.1.Shows localAddr octets ∧
    fed = before ++ framingBeginFlag :: (within ++ if s.2 then [framingEscFlag] else [])

/-- A message ends where the bytes end. -/
def EndsWith (localAddr : UInt8) (m : FrameMessage) (fed : List UInt8) : Prop :=
  m.payload ≠ [] ∧ ∃ before within lsb msb, fed = before ++ framingBeginFlag :: within ∧
    (twoOctets lsb msb).toNat = m.payload.length ∧
    Unstuffs within ([m.remoteAddr, localAddr, lsb, msb] ++ framedOctets m.payload)

/-- One octet more. -/
lemma Shows.octet {scan : FrameScan} {octets : List UInt8} (h : scan.Shows localAddr octets)
    (hscan : scan ≠ .hunt) (o : UInt8) :
    (scan.octet localAddr len o).1.Shows localAddr (octets ++ [o]) := by
  cases scan with
  | hunt => exact absurd rfl hscan
  | srcAddr =>
    obtain rfl := h
    exact rfl
  | dstAddr src =>
    obtain rfl := h
    rw [FrameScan.octet]
    split
    · next heq => exact heq ▸ rfl
    · trivial
  | lenLsb src =>
    obtain rfl := h
    exact rfl
  | lenMsb src lsb =>
    obtain rfl := h
    rw [FrameScan.octet]
    split
    · trivial
    · exact ⟨lsb, o, rfl, Nat.zero_le _, rfl⟩
  | payload src msgLen buf =>
    obtain ⟨lsb, msb, rfl, hle, rfl⟩ := h
    rw [FrameScan.octet]
    split
    · next hlt =>
      refine ⟨lsb, msb, rfl, ?_, List.append_assoc _ _ _⟩
      rw [List.length_append]
      exact hlt
    · next hge => exact ⟨lsb, msb, by omega, List.append_assoc _ _ _⟩
  | crcMsb src buf crcLsb => trivial

/-- The octet that completes a message. -/
lemma Shows.message {scan : FrameScan} {octets : List UInt8} (h : scan.Shows localAddr octets)
    {o : UInt8} {m : FrameMessage} (hm : (scan.octet localAddr len o).2 = some m) :
    m.payload ≠ [] ∧ ∃ lsb msb, (twoOctets lsb msb).toNat = m.payload.length ∧
      octets ++ [o] = [m.remoteAddr, localAddr, lsb, msb] ++ framedOctets m.payload := by
  cases scan with
  | crcMsb src buf crcLsb =>
    obtain ⟨lsb, msb, hlength, rfl⟩ := h
    rw [FrameScan.octet] at hm
    split at hm
    · next hcrc =>
      obtain rfl := Option.some.inj hm
      refine ⟨hcrc.2, lsb, msb, hlength, ?_⟩
      dsimp only
      rw [framedOctets, hcrc.1, tmpCrc_twoOctets]
      simp
    · cases hm
  | _ => cases hm

/-- What the bytes say about a frame, and about a message, is kept. -/
lemma traces_feed : Traces (feed localAddr len) (Behind localAddr) (EndsWith localAddr) := by
  -- a byte that gives an octet, with the bytes that stand for it
  have hoctet : ∀ {scan : FrameScan} {before within octets bytes : List UInt8} {o : UInt8},
      scan ≠ .hunt → scan.Shows localAddr octets → Unstuffs (within ++ bytes) (octets ++ [o]) →
        Behind localAddr ((scan.octet localAddr len o).1, false)
            (before ++ framingBeginFlag :: (within ++ bytes)) ∧
          ∀ m, (scan.octet localAddr len o).2 = some m →
            EndsWith localAddr m (before ++ framingBeginFlag :: (within ++ bytes)) := by
    intro scan before within octets bytes o hscan hshows hunstuffs
    refine ⟨.inr ⟨before, within ++ bytes, _, hunstuffs, hshows.octet hscan o, ?_⟩, fun m hm => ?_⟩
    · rw [if_neg Bool.false_ne_true, List.append_nil]
    · obtain ⟨hne, lsb, msb, hlength, hoctets⟩ := hshows.message hm
      exact ⟨hne, before, within ++ bytes, lsb, msb, rfl, hlength, hoctets ▸ hunstuffs⟩
  have hall : ∀ s fed byte, Behind localAddr s fed →
      Behind localAddr (feed localAddr len s byte).1 (fed ++ [byte]) ∧
        ∀ m, (feed localAddr len s byte).2 = some m → EndsWith localAddr m (fed ++ [byte]) := by
    rintro ⟨scan, escaped⟩ fed byte hbehind
    by_cases hbegin : byte = framingBeginFlag
    · rw [hbegin, feed_begin]
      exact ⟨.inr ⟨fed, [], [], .nil, rfl, rfl⟩, fun m hm => by cases hm⟩
    by_cases hscan : scan = .hunt
    · rw [hscan, feed, if_neg hbegin]
      exact ⟨.inl rfl, fun m hm => by cases hm⟩
    obtain ⟨before, within, octets, hunstuffs, hshows, rfl⟩ := hbehind.resolve_left hscan
    cases escaped with
    | true =>
      rw [feed_escaped hscan hbegin, List.append_assoc, List.cons_append, List.append_assoc]
      exact hoctet hscan hshows (hunstuffs.escaped hbegin)
    | false =>
      rw [if_neg Bool.false_ne_true, List.append_nil, List.append_assoc, List.cons_append]
      by_cases hesc : byte = framingEscFlag
      · rw [hesc, feed_esc hscan]
        exact ⟨.inr ⟨before, within, octets, hunstuffs, hshows, rfl⟩, fun m hm => by cases hm⟩
      · rw [feed_plain hscan hbegin hesc]
        exact hoctet hscan hshows (hunstuffs.plain hbegin hesc)
  exact ⟨fun byte h => (hall _ _ byte h).1, fun byte m h => (hall _ _ byte h).2 m⟩

/-- What is decoded from noise lies in it, and in what was read of a frame before. -/
lemma liesIn_of_decoded {s : FrameScan × Bool} {fed noise : List UInt8} {m : FrameMessage}
    (hbehind : Behind localAddr s fed) (hm : m ∈ messages (feed localAddr len) s noise) :
    m.LiesIn localAddr (fed ++ noise) := by
  obtain ⟨part, ⟨behind, rfl⟩, hne, before, within, lsb, msb, hpart, hlength, hunstuffs⟩ :=
    traces_feed.of_mem hbehind hm
  refine ⟨hne, before, within, behind, lsb, msb, ?_, hlength, hunstuffs⟩
  rw [← List.append_assoc, hpart]

/-- What is decoded from a line is received of it. -/
theorem received_wire {sent : List (FrameMessage × List UInt8)} (hfits : ∀ x ∈ sent, x.1.Fits len)
    {s : FrameScan × Bool} {fed : List UInt8} (hbehind : Behind localAddr s fed)
    (noise : List UInt8) : ReceivedFrames localAddr (fed ++ noise) sent
      (messages (feed localAddr len) s (wire localAddr noise sent)) := by
  induction sent generalizing s fed noise with
  | nil =>
    rw [wire, List.flatMap_nil, List.append_nil]
    exact fun m hm => liesIn_of_decoded hbehind hm
  | cons x sent ih =>
    obtain ⟨m, noise'⟩ := x
    have hframe := decodes_frame localAddr (after (feed localAddr len) s noise)
      (hfits _ List.mem_cons_self)
    have hwire : wire localAddr noise ((m, noise') :: sent) =
        noise ++ (frame m.remoteAddr localAddr m.payload ++ wire localAddr noise' sent) := by
      rw [wire, wire, List.flatMap_cons, List.append_assoc]
    have hrest := ih (fun x hx => hfits x (List.mem_cons_of_mem _ hx))
      (show Behind localAddr (.hunt, false) [] from .inl rfl) noise'
    refine ⟨messages (feed localAddr len) s noise,
      messages (feed localAddr len) (.hunt, false) (wire localAddr noise' sent), ?_,
      fun m hm => liesIn_of_decoded hbehind hm, hrest⟩
    rw [hwire, messages_append, messages_append, hframe.messages_eq, hframe.after_eq]
    rfl

end FrameScan

end XrceDds
