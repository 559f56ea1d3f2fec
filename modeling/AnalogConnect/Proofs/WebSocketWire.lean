import Mathlib.Data.Fin.Basic
import AnalogConnect.WebSocketWire

/-!
# The phone's WebSocket framing is exact

However a stream gives its bytes, reading them depends only on what they are
(`InputStream.exists_read`, `WebSocketWire.exists_readExact`). So the phone reads a frame off a
stream just where the stream goes on with a frame the daemon may send, and leaves what comes after
(`WebSocketWire.served_of_readServerFrame`, `WebSocketWire.exists_readServerFrame`).
-/

namespace AnalogConnect

/-! ## Streams -/

namespace InputStream

theorem flatten_of_read : ∀ {input rest : InputStream} {byte : UInt8},
    input.read = some (byte, rest) → input.flatten = byte :: rest.flatten
  | [], _, _, h => by cases h
  | [] :: input, _, _, h => @flatten_of_read input _ _ h
  | (_ :: _) :: _, _, _, h => by
    unfold read at h
    rw [Option.some.injEq, Prod.mk.injEq] at h
    obtain ⟨rfl, rfl⟩ := h
    rfl

theorem exists_read : ∀ {input : InputStream} {byte : UInt8} {tail : List UInt8},
    input.flatten = byte :: tail → ∃ rest, input.read = some (byte, rest) ∧ rest.flatten = tail
  | [], _, _, h => by cases h
  | [] :: input, _, _, h => @exists_read input _ _ h
  | (_ :: piece) :: input, _, _, h => by
    rw [List.flatten_cons, List.cons_append, List.cons.injEq] at h
    obtain ⟨rfl, rfl⟩ := h
    exact ⟨piece :: input, rfl, rfl⟩

theorem flatten_of_readInto {length : ℕ} {input rest : InputStream} {bytes : List UInt8}
    (h : input.readInto length = some (bytes, rest)) :
    bytes.length ≤ length ∧ input.flatten = bytes ++ rest.flatten := by
  cases input with
  | nil => cases h
  | cons piece input =>
    unfold readInto at h
    rw [Option.some.injEq, Prod.mk.injEq] at h
    obtain ⟨rfl, rfl⟩ := h
    refine ⟨List.length_take_le _ _, ?_⟩
    split_ifs with hshort
    · rw [List.take_of_length_le hshort, List.flatten_cons]
    · rw [List.flatten_cons, List.flatten_cons, ← List.append_assoc, List.take_append_drop]

end InputStream

namespace WebSocketWire

theorem flatten_of_readByte {input rest : InputStream} {byte : UInt8}
    (h : readByte input = .ok (byte, rest)) : input.flatten = byte :: rest.flatten := by
  unfold readByte at h
  split at h
  · cases h
  rename_i value input' hread
  rw [Except.ok.injEq, Prod.mk.injEq] at h
  obtain ⟨rfl, rfl⟩ := h
  exact InputStream.flatten_of_read hread

theorem exists_readByte {input : InputStream} {byte : UInt8} {tail : List UInt8}
    (h : input.flatten = byte :: tail) :
    ∃ rest, readByte input = .ok (byte, rest) ∧ rest.flatten = tail := by
  obtain ⟨rest, hread, htail⟩ := InputStream.exists_read h
  refine ⟨rest, ?_, htail⟩
  unfold readByte
  rw [hread]

/-- What is read is as much as was asked for, off the front. -/
theorem flatten_of_readExact {length : ℕ} {input rest : InputStream} {bytes : List UInt8}
    (h : readExact length input = .ok (bytes, rest)) :
    bytes.length = length ∧ input.flatten = bytes ++ rest.flatten := by
  rw [readExact] at h
  split_ifs at h with hlength
  · rw [Except.ok.injEq, Prod.mk.injEq] at h
    obtain ⟨rfl, rfl⟩ := h
    exact ⟨hlength.symm, rfl⟩
  split at h
  · cases h
  rename_i piece input' hread
  split at h
  · cases h
  rename_i more rest' hmore
  rw [Except.ok.injEq, Prod.mk.injEq] at h
  obtain ⟨rfl, rfl⟩ := h
  obtain ⟨hle, hinput⟩ := InputStream.flatten_of_readInto hread
  obtain ⟨hlen, hinput'⟩ := flatten_of_readExact hmore
  refine ⟨?_, ?_⟩
  · rw [List.length_append, hlen]
    omega
  · rw [hinput, hinput', List.append_assoc]
termination_by length + input.length
decreasing_by exact InputStream.readInto_lt ‹_› ‹_›

theorem exists_readExact {length : ℕ} {input : InputStream} (h : length ≤ input.flatten.length) :
    ∃ rest, readExact length input = .ok (input.flatten.take length, rest) ∧
      rest.flatten = input.flatten.drop length := by
  rw [readExact]
  split_ifs with hlength
  · rw [hlength]
    exact ⟨input, rfl, rfl⟩
  split
  · rename_i hread
    cases input with
    | nil => exact absurd (Nat.le_zero.1 h) hlength
    | cons piece input => cases hread
  rename_i piece input' hread
  obtain ⟨hle, hinput⟩ := InputStream.flatten_of_readInto hread
  have hmore : length - piece.length ≤ input'.flatten.length := by
    rw [hinput, List.length_append] at h
    omega
  obtain ⟨rest, hrest, htail⟩ := exists_readExact hmore
  refine ⟨rest, ?_, ?_⟩
  · rw [hrest, hinput, List.take_append, List.take_of_length_le hle]
  · rw [htail, hinput, List.drop_append, List.drop_of_length_le hle, List.nil_append]
termination_by length + input.length
decreasing_by exact InputStream.readInto_lt ‹_› ‹_›

/-! ## Headers -/

open WebSocketFrame (firstByte secondByte)

/-- The first bytes that say a whole frame without extensions. -/
theorem firstByte_bits (opcode : Fin 16) :
    (firstByte true 0 opcode &&& 0x80 ≠ 0 ∧ firstByte true 0 opcode &&& 0x70 = 0) ∧
      (firstByte true 0 opcode &&& 0x0f).toNat = opcode := by
  revert opcode
  decide

theorem exists_opcode (byte : UInt8) (hfin : byte &&& 0x80 ≠ 0) (hrsv : byte &&& 0x70 = 0) :
    ∃ opcode, byte = firstByte true 0 opcode := by
  have hall : ∀ n < 256, UInt8.ofNat n &&& 0x80 ≠ 0 → UInt8.ofNat n &&& 0x70 = 0 →
      ∃ opcode, UInt8.ofNat n = firstByte true 0 opcode := by
    decide +kernel
  rw [← UInt8.ofNat_toNat (x := byte)] at hfin hrsv ⊢
  exact hall _ byte.toNat_lt hfin hrsv

/-- The second bytes without a mask. -/
theorem secondByte_bits {code : ℕ} (h : code < 128) :
    secondByte false code &&& 0x80 = 0 ∧ (secondByte false code &&& 0x7f).toNat = code := by
  revert code
  decide

theorem eq_secondByte (byte : UInt8) (hmask : byte &&& 0x80 = 0) :
    byte = secondByte false (byte &&& 0x7f).toNat ∧ (byte &&& 0x7f).toNat < 128 := by
  have hall : ∀ n < 256, UInt8.ofNat n &&& 0x80 = 0 →
      UInt8.ofNat n = secondByte false (UInt8.ofNat n &&& 0x7f).toNat ∧
        (UInt8.ofNat n &&& 0x7f).toNat < 128 := by
    decide +kernel
  rw [← UInt8.ofNat_toNat (x := byte)] at hmask ⊢
  exact hall _ byte.toNat_lt hmask

theorem shiftLeft_or (high low : UInt8) :
    (high.toNat <<< 8) ||| low.toNat = Bytes.beNat [high, low] := by
  have hlow : low.toNat < 2 ^ 8 := low.toNat_lt
  rw [← Nat.shiftLeft_add_eq_or_of_lt hlow, Nat.shiftLeft_eq]
  simp only [Bytes.beNat, Bytes.leNat, List.reverse_cons, List.reverse_nil, List.nil_append,
    List.cons_append]
  omega

/-- The length that is read is written in its shortest form. -/
theorem form_of_readLength {code length : ℕ} {input rest : InputStream} (hcode : code < 128)
    (h : readLength code input = .ok (length, rest)) :
    ∃ form : LengthForm, form.Fits length ∧ form.Minimal length ∧ form.code length = code ∧
      input.flatten = form.extension length ++ rest.flatten := by
  unfold readLength at h
  split_ifs at h with hmedium hlong
  · split at h
    · cases h
    rename_i high input' hhigh
    split at h
    · cases h
    rename_i low input'' hlow
    rw [shiftLeft_or] at h
    dsimp only at h
    split_ifs at h with hsmall
    rw [Except.ok.injEq, Prod.mk.injEq] at h
    obtain ⟨rfl, rfl⟩ := h
    have hbytes : Bytes.beBytes 2 (Bytes.beNat [high, low]) = [high, low] := Bytes.beBytes_beNat rfl
    refine ⟨.medium, Bytes.beNat_lt (w := 2) rfl, Nat.lt_of_not_le hsmall, hmedium.symm, ?_⟩
    show _ = Bytes.beBytes 2 _ ++ _
    rw [hbytes, flatten_of_readByte hhigh, flatten_of_readByte hlow]
    rfl
  · rw [Except.ok.injEq, Prod.mk.injEq] at h
    obtain ⟨rfl, rfl⟩ := h
    exact ⟨.short, show code ≤ 125 by omega, trivial, rfl, rfl⟩

theorem exists_readLength {form : LengthForm} {length : ℕ} {input : InputStream}
    {tail : List UInt8} (hfits : form.Fits length) (hminimal : form.Minimal length)
    (hlong : length < 2 ^ 16) (h : input.flatten = form.extension length ++ tail) :
    ∃ rest, readLength (form.code length) input = .ok (length, rest) ∧ rest.flatten = tail := by
  unfold readLength
  cases form with
  | short =>
    have hle : length ≤ 125 := hfits
    have hcode : LengthForm.short.code length = length := rfl
    rw [hcode, if_neg (by omega), if_neg (by omega)]
    exact ⟨input, rfl, h⟩
  | medium =>
    have hbytes : LengthForm.medium.extension length =
        [UInt8.ofNat (length / 256), UInt8.ofNat length] := rfl
    have hnat : Bytes.beNat [UInt8.ofNat (length / 256), UInt8.ofNat length] = length :=
      Bytes.beNat_beBytes_of_lt (w := 2) hlong
    rw [hbytes] at h
    obtain ⟨rest, hhigh, htail⟩ := exists_readByte h
    obtain ⟨rest', hlow, htail'⟩ := exists_readByte htail
    refine ⟨rest', ?_, htail'⟩
    rw [if_pos (show LengthForm.medium.code length = 126 from rfl), hhigh]
    dsimp only
    rw [hlow]
    dsimp only
    rw [shiftLeft_or, hnat, if_neg (Nat.not_le_of_lt hminimal)]
  | long => exact absurd hlong (Nat.not_lt_of_le hminimal)

/-! ## Frames -/

/-- A frame the daemon may send. -/
structure Served (frame : WebSocketFrame) : Prop where
  fin : frame.fin = true
  rsv : frame.rsv = 0
  mask : frame.mask = none
  minimal : frame.form.Minimal frame.payload.length
  length_le : frame.payload.length ≤ 1056
  opcode : (frame.opcode : ℕ) = 2 ∨ (frame.opcode : ℕ) = 8 ∨ (frame.opcode : ℕ) = 9 ∨
    (frame.opcode : ℕ) = 10
  control : 8 ≤ (frame.opcode : ℕ) → frame.payload.length ≤ 125
  close : (frame.opcode : ℕ) = 8 → frame.payload.length ≠ 1

/-- What reading the frame gives. -/
def read (frame : WebSocketFrame) : Frame := ⟨frame.opcode, frame.payload⟩

theorem validate_iff {opcode : ℕ} {payload : List UInt8} :
    validateOpcodeAndPayload opcode payload = .ok () ↔
      payload.length ≤ 1056 ∧ (opcode = 2 ∨ opcode = 8 ∨ opcode = 9 ∨ opcode = 10) ∧
        (8 ≤ opcode → payload.length ≤ 125) ∧ (opcode = 8 → payload.length ≠ 1) := by
  unfold validateOpcodeAndPayload maxPayloadBytes opcodeBinary opcodeClose opcodePing opcodePong
    AudioPacketCodec.maxBatchFrames
  constructor
  · intro h
    split_ifs at h with hinvalid
    omega
  · intro h
    rw [if_neg]
    omega

theorem Served.bytes_eq {frame : WebSocketFrame} (h : Served frame) :
    frame.bytes = firstByte true 0 frame.opcode ::
      secondByte false (frame.form.code frame.payload.length) ::
        (frame.form.extension frame.payload.length ++ frame.payload) := by
  unfold WebSocketFrame.bytes
  rw [h.fin, h.rsv, h.mask]
  rfl

/-- What is accepted is a frame the daemon may send, and that frame only is consumed. -/
theorem served_of_readServerFrame {input rest : InputStream} {frame : Frame}
    (h : readServerFrame input = .ok (frame, rest)) :
    ∃ served, Served served ∧ frame = read served ∧
      input.flatten = served.bytes ++ rest.flatten := by
  unfold readServerFrame at h
  split at h
  · cases h
  rename_i first input₁ hfirst
  split at h
  · cases h
  rename_i second input₂ hsecond
  dsimp only at h
  split_ifs at h with hinvalid
  rw [not_or, not_or, not_not, not_not] at hinvalid
  obtain ⟨hfin, hrsv, hmask⟩ := hinvalid
  split at h
  · cases h
  rename_i length input₃ hlength
  split_ifs at h with hlarge
  split at h
  · cases h
  rename_i payload input₄ hpayload
  split at h
  · cases h
  rename_i hvalid
  rw [Except.ok.injEq, Prod.mk.injEq] at h
  obtain ⟨rfl, rfl⟩ := h
  obtain ⟨opcode, rfl⟩ := exists_opcode first hfin hrsv
  obtain ⟨heq, hcode⟩ := eq_secondByte second hmask
  obtain ⟨form, hfits, hminimal, hform, hinput₂⟩ := form_of_readLength hcode hlength
  obtain ⟨rfl, hinput₃⟩ := flatten_of_readExact hpayload
  rw [(firstByte_bits opcode).2] at hvalid ⊢
  obtain ⟨hle, hopcode, hcontrol, hclose⟩ := validate_iff.1 hvalid
  have hserved : Served ⟨true, 0, opcode, none, form, payload, hfits⟩ :=
    ⟨rfl, rfl, rfl, hminimal, hle, hopcode, hcontrol, hclose⟩
  refine ⟨_, hserved, rfl, ?_⟩
  rw [hserved.bytes_eq, flatten_of_readByte hfirst, flatten_of_readByte hsecond, hinput₂, hinput₃,
    hform, ← heq]
  simp only [List.cons_append, List.append_assoc]

/-- Every frame the daemon may send is accepted, whatever comes after it. -/
theorem exists_readServerFrame {served : WebSocketFrame} (h : Served served) {input : InputStream}
    {tail : List UInt8} (hinput : input.flatten = served.bytes ++ tail) :
    ∃ rest, readServerFrame input = .ok (read served, rest) ∧ rest.flatten = tail := by
  rw [h.bytes_eq] at hinput
  simp only [List.cons_append, List.append_assoc] at hinput
  obtain ⟨input₁, hfirst, hinput⟩ := exists_readByte hinput
  obtain ⟨input₂, hsecond, hinput⟩ := exists_readByte hinput
  have hlong := h.length_le
  obtain ⟨input₃, hlength, hinput⟩ :=
    exists_readLength served.fits h.minimal (by omega) hinput
  obtain ⟨rest, hpayload, htail⟩ :=
    exists_readExact (show served.payload.length ≤ input₃.flatten.length by rw [hinput]; simp)
  rw [hinput, List.take_left] at hpayload
  rw [hinput, List.drop_left] at htail
  refine ⟨rest, ?_, htail⟩
  obtain ⟨⟨hfin, hrsv⟩, hopcode⟩ := firstByte_bits served.opcode
  obtain ⟨hmask, hcode⟩ := secondByte_bits (LengthForm.code_lt served.fits)
  have hvalid := validate_iff.2 ⟨h.length_le, h.opcode, h.control, h.close⟩
  have hcontrol := h.control
  unfold readServerFrame
  rw [hfirst]
  dsimp only
  rw [hsecond]
  dsimp only
  rw [if_neg (by simp [hfin, hrsv, hmask]), hcode, hlength, hopcode]
  dsimp only
  rw [if_neg, hpayload]
  · dsimp only
    rw [hvalid]
    rfl
  · unfold maxPayloadBytes opcodeClose AudioPacketCodec.maxBatchFrames
    omega

/-- Frames one after another are read back in order. -/
theorem exists_readServerFrames : ∀ {frames : List WebSocketFrame} {input : InputStream}
    {tail : List UInt8}, (∀ frame ∈ frames, Served frame) →
    input.flatten = frames.flatMap WebSocketFrame.bytes ++ tail →
    ∃ rest, readServerFrames frames.length input = .ok (frames.map read, rest) ∧
      rest.flatten = tail
  | [], input, _, _, h => ⟨input, rfl, h⟩
  | frame :: frames, input, tail, hserved, h => by
    rw [List.flatMap_cons, List.append_assoc] at h
    obtain ⟨input', hread, h⟩ := exists_readServerFrame (hserved frame List.mem_cons_self) h
    obtain ⟨rest, hreads, htail⟩ :=
      exists_readServerFrames (fun f hf => hserved f (List.mem_cons_of_mem _ hf)) h
    refine ⟨rest, ?_, htail⟩
    rw [List.length_cons, readServerFrames, hread]
    dsimp only
    rw [hreads]
    rfl

/-! ## The phone's frames -/

/-- The shortest form of a length that two bytes can say. -/
def clientForm (length : ℕ) : LengthForm := if length ≤ 125 then .short else .medium

theorem fits_clientForm {length : ℕ} (h : length < 2 ^ 16) : (clientForm length).Fits length := by
  unfold clientForm
  split_ifs with hshort
  · exact hshort
  · exact h

theorem minimal_clientForm (length : ℕ) : (clientForm length).Minimal length := by
  unfold clientForm
  split_ifs with hshort
  · trivial
  · exact Nat.lt_of_not_le hshort

/-- The bytes of length the phone writes. -/
theorem lengthBytes_eq {length : ℕ} :
    (if length ≤ 125 then [UInt8.ofNat (0x80 ||| length)]
      else
        [UInt8.ofNat (0x80 ||| 126), UInt8.ofNat ((length >>> 8) &&& 0xff),
          UInt8.ofNat (length &&& 0xff)]) =
      secondByte true ((clientForm length).code length) ::
        (clientForm length).extension length := by
  have hlow : ∀ n, UInt8.ofNat (n &&& 0xff) = UInt8.ofNat n := by
    intro n
    rw [Nat.and_two_pow_sub_one_eq_mod n 8, ← UInt8.toNat_inj, UInt8.toNat_ofNat',
      UInt8.toNat_ofNat', Nat.mod_mod]
  have hshort : ∀ n ≤ 125, UInt8.ofNat (0x80 ||| n) = secondByte true n := by
    decide
  unfold clientForm
  split_ifs with hle
  · rw [hshort length hle]
    rfl
  · rw [hlow, hlow, Nat.shiftRight_eq_div_pow]
    rfl

theorem exists_writeClientFrame {opcode : ℕ} {payload : List UInt8}
    (h : validateOpcodeAndPayload opcode payload = .ok ()) (mask : MaskKey) :
    ∃ frame : WebSocketFrame, writeClientFrame opcode payload mask = .ok frame.bytes ∧
      frame.fin = true ∧ frame.rsv = 0 ∧ (frame.opcode : ℕ) = opcode ∧ frame.mask = some mask ∧
      frame.form.Minimal frame.payload.length ∧ frame.data = payload := by
  obtain ⟨hle, hopcode, -, -⟩ := validate_iff.1 h
  have hlt : opcode < 16 := by omega
  have hlength := length_applyMask mask payload
  have hfirst : UInt8.ofNat (0x80 ||| opcode) = firstByte true 0 ⟨opcode, hlt⟩ := by
    rcases hopcode with rfl | rfl | rfl | rfl <;> rfl
  have hfits : (clientForm payload.length).Fits (applyMask mask payload).length := by
    rw [hlength]
    exact fits_clientForm (by omega)
  refine ⟨⟨true, 0, ⟨opcode, hlt⟩, some mask, clientForm payload.length, applyMask mask payload,
    hfits⟩, ?_, rfl, rfl, rfl, rfl, ?_, applyMask_applyMask mask payload⟩
  · unfold writeClientFrame WebSocketFrame.bytes
    rw [h]
    dsimp only
    rw [lengthBytes_eq, hfirst, hlength]
    rfl
  · dsimp only
    rw [hlength]
    exact minimal_clientForm payload.length

end WebSocketWire

open WebSocketWire

/-- The phone writes whole, masked frames in their shortest form; it accepts exactly the frames the
daemon may send, however their bytes come, and reads them back one after another. -/
theorem websocket_framing_exact :
    (∀ opcode payload mask, validateOpcodeAndPayload opcode payload = .ok () →
      ∃ frame : WebSocketFrame, writeClientFrame opcode payload mask = .ok frame.bytes ∧
        frame.fin = true ∧ frame.rsv = 0 ∧ (frame.opcode : ℕ) = opcode ∧ frame.mask = some mask ∧
        frame.form.Minimal frame.payload.length ∧ frame.data = payload) ∧
    (∀ (input : InputStream) (frame : WebSocketFrame) (tail : List UInt8),
      input.flatten = frame.bytes ++ tail →
        ((∃ result, readServerFrame input = .ok result) ↔ Served frame) ∧
        (Served frame → ∃ rest, readServerFrame input = .ok (read frame, rest) ∧
          rest.flatten = tail)) ∧
    (∀ input frame rest, readServerFrame input = .ok (frame, rest) →
      ∃ served, Served served ∧ frame = read served ∧
        input.flatten = served.bytes ++ rest.flatten) ∧
    ∀ (frames : List WebSocketFrame) (input : InputStream) (tail : List UInt8),
      (∀ frame ∈ frames, Served frame) →
      input.flatten = frames.flatMap WebSocketFrame.bytes ++ tail →
        ∃ rest, readServerFrames frames.length input = .ok (frames.map read, rest) ∧
          rest.flatten = tail := by
  refine ⟨fun opcode payload mask h => exists_writeClientFrame h mask,
    fun input frame tail hinput => ⟨⟨?_, fun hserved => ?_⟩, fun hserved => ?_⟩,
    fun input frame rest h => served_of_readServerFrame h,
    fun frames input tail hserved hinput => exists_readServerFrames hserved hinput⟩
  · rintro ⟨⟨result, rest⟩, hread⟩
    obtain ⟨served, hserved, -, heq⟩ := served_of_readServerFrame hread
    obtain ⟨rfl, -⟩ := WebSocketFrame.prefix_free (hinput.symm.trans heq)
    exact hserved
  · obtain ⟨rest, hread, -⟩ := exists_readServerFrame hserved hinput
    exact ⟨_, hread⟩
  · exact exists_readServerFrame hserved hinput

/-- A ping that comes in pieces, and the pong that answers it. -/
theorem websocket_framing_exact_ping :
    (∃ rest, readServerFrame [[0x89], [], [0x01, 0x2a, 0x82]] = .ok (⟨9, [0x2a]⟩, rest) ∧
      rest.flatten = [0x82]) ∧
    ∃ frame : WebSocketFrame,
      writeClientFrame 10 [0x2a] (fun _ => 0x55) = .ok frame.bytes ∧ frame.data = [0x2a] := by
  have hserved : Served ⟨true, 0, 9, none, .short, [0x2a],
      show 1 ≤ 125 by decide⟩ :=
    ⟨rfl, rfl, rfl, trivial, by decide, by decide, by decide, by decide⟩
  obtain ⟨frame, hwrite, -, -, -, -, -, hdata⟩ :=
    websocket_framing_exact.1 10 [0x2a] (fun _ => 0x55) rfl
  exact ⟨(websocket_framing_exact.2.1 [[0x89], [], [0x01, 0x2a, 0x82]] _ [0x82] rfl).2 hserved,
    frame, hwrite, hdata⟩

end AnalogConnect
