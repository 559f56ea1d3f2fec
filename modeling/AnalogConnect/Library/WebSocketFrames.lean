import Mathlib.Data.List.OfFn
import AnalogConnect.Library.Bytes

/-!
# WebSocket frames

The base framing of RFC 6455: two bytes of bits, the length in one of three forms, a masking key if
there is one, and the payload. No frame is the beginning of another (`WebSocketFrame.prefix_free`),
and masking with a key is undone by masking with it again (`applyMask_applyMask`).
-/

open Bytes

/-- A masking key. -/
abbrev MaskKey := Fin 4 → UInt8

/-- The key's byte for the payload's byte at the index. -/
def MaskKey.byteAt (key : MaskKey) (index : ℕ) : UInt8 := key (Fin.ofNat 4 index)

/-- Each byte is combined with the key's byte of its index. -/
def applyMask (key : MaskKey) (payload : List UInt8) : List UInt8 :=
  payload.mapIdx fun index byte => byte ^^^ key.byteAt index

theorem length_applyMask (key : MaskKey) (payload : List UInt8) :
    (applyMask key payload).length = payload.length :=
  List.length_mapIdx

theorem applyMask_applyMask (key : MaskKey) (payload : List UInt8) :
    applyMask key (applyMask key payload) = payload := by
  unfold applyMask
  refine List.ext_getElem (by simp) fun index _ _ => ?_
  rw [List.getElem_mapIdx, List.getElem_mapIdx, UInt8.xor_assoc, UInt8.xor_self, UInt8.xor_zero]

/-! ## Lengths -/

inductive LengthForm
  | short
  | medium
  | long
deriving DecidableEq

namespace LengthForm

/-- The lengths the form can say. -/
def Fits : LengthForm → ℕ → Prop
  | short, n => n ≤ 125
  | medium, n => n < 2 ^ 16
  | long, n => n < 2 ^ 63

/-- No shorter form can say the length. -/
def Minimal : LengthForm → ℕ → Prop
  | short, _ => True
  | medium, n => 125 < n
  | long, n => 2 ^ 16 ≤ n

/-- The seven bits of length in the second byte. -/
def code : LengthForm → ℕ → ℕ
  | short, n => n
  | medium, _ => 126
  | long, _ => 127

/-- The bytes of length after the second. -/
def extension : LengthForm → ℕ → List UInt8
  | short, _ => []
  | medium, n => beBytes 2 n
  | long, n => beBytes 8 n

theorem code_lt {form : LengthForm} {n : ℕ} (h : form.Fits n) : form.code n < 128 := by
  cases form
  · exact Nat.lt_of_le_of_lt h (by decide)
  · exact Nat.lt_of_sub_eq_succ rfl
  · exact Nat.lt_of_sub_eq_succ rfl

theorem beBytes_inj {w n m : ℕ} (hn : n < 256 ^ w) (hm : m < 256 ^ w)
    (h : beBytes w n = beBytes w m) : n = m := by
  rw [← beNat_beBytes_of_lt hn, ← beNat_beBytes_of_lt hm, h]

/-- Form and length can be read off what they are written as. -/
theorem eq_of_code {form form' : LengthForm} {n n' : ℕ} (h : form.Fits n) (h' : form'.Fits n')
    (hcode : form.code n = form'.code n') {tail tail' : List UInt8}
    (hbytes : form.extension n ++ tail = form'.extension n' ++ tail') :
    form = form' ∧ n = n' ∧ tail = tail' := by
  unfold Fits at h h'
  unfold code at hcode
  unfold extension at hbytes
  cases form <;> cases form' <;> dsimp only at h h' hcode hbytes
  · exact ⟨rfl, hcode, hbytes⟩
  · omega
  · omega
  · omega
  · obtain ⟨hlength, htail⟩ := List.append_inj hbytes (by simp)
    exact ⟨rfl, beBytes_inj h h' hlength, htail⟩
  · omega
  · omega
  · omega
  · obtain ⟨hlength, htail⟩ := List.append_inj hbytes (by simp)
    exact ⟨rfl, beBytes_inj (w := 8) (by omega) (by omega) hlength, htail⟩

end LengthForm

/-! ## The first two bytes -/

namespace WebSocketFrame

def firstByte (fin : Bool) (rsv : Fin 8) (opcode : Fin 16) : UInt8 :=
  UInt8.ofNat (fin.toNat * 128 + rsv * 16 + opcode)

def secondByte (masked : Bool) (code : ℕ) : UInt8 := UInt8.ofNat (masked.toNat * 128 + code)

theorem toNat_firstByte (fin : Bool) (rsv : Fin 8) (opcode : Fin 16) :
    (firstByte fin rsv opcode).toNat = fin.toNat * 128 + rsv * 16 + opcode := by
  have := fin.toNat_le
  unfold firstByte
  rw [UInt8.toNat_ofNat']
  omega

theorem toNat_secondByte {masked : Bool} {code : ℕ} (h : code < 128) :
    (secondByte masked code).toNat = masked.toNat * 128 + code := by
  have := masked.toNat_le
  unfold secondByte
  rw [UInt8.toNat_ofNat']
  omega

theorem eq_of_toNat {b c : Bool} {n m : ℕ} (hn : n < 128) (hm : m < 128)
    (h : b.toNat * 128 + n = c.toNat * 128 + m) : b = c ∧ n = m := by
  cases b <;> cases c <;> simp only [Bool.toNat_false, Bool.toNat_true] at h
  · exact ⟨rfl, by omega⟩
  · omega
  · omega
  · exact ⟨rfl, by omega⟩

theorem firstByte_inj {fin fin' : Bool} {rsv rsv' : Fin 8} {opcode opcode' : Fin 16}
    (h : firstByte fin rsv opcode = firstByte fin' rsv' opcode') :
    fin = fin' ∧ rsv = rsv' ∧ opcode = opcode' := by
  have hnat := congrArg UInt8.toNat h
  rw [toNat_firstByte, toNat_firstByte, Nat.add_assoc, Nat.add_assoc] at hnat
  obtain ⟨hfin, hlow⟩ := eq_of_toNat (by omega) (by omega) hnat
  exact ⟨hfin, Fin.ext (by omega), Fin.ext (by omega)⟩

theorem secondByte_inj {masked masked' : Bool} {code code' : ℕ} (hcode : code < 128)
    (hcode' : code' < 128) (h : secondByte masked code = secondByte masked' code') :
    masked = masked' ∧ code = code' := by
  have hnat := congrArg UInt8.toNat h
  rw [toNat_secondByte hcode, toNat_secondByte hcode'] at hnat
  exact eq_of_toNat hcode hcode' hnat

end WebSocketFrame

/-! ## Frames -/

/-- A frame as it is sent: its payload is masked already where it has a key. -/
structure WebSocketFrame where
  fin : Bool
  rsv : Fin 8
  opcode : Fin 16
  mask : Option MaskKey
  form : LengthForm
  payload : List UInt8
  fits : form.Fits payload.length

namespace WebSocketFrame

def maskBytes : Option MaskKey → List UInt8
  | none => []
  | some key => List.ofFn key

def bytes (frame : WebSocketFrame) : List UInt8 :=
  firstByte frame.fin frame.rsv frame.opcode ::
    secondByte frame.mask.isSome (frame.form.code frame.payload.length) ::
      (frame.form.extension frame.payload.length ++ (maskBytes frame.mask ++ frame.payload))

/-- What the payload says. -/
def data (frame : WebSocketFrame) : List UInt8 :=
  match frame.mask with
  | none => frame.payload
  | some key => applyMask key frame.payload

/-- No frame is the beginning of another. -/
theorem prefix_free {frame frame' : WebSocketFrame} {tail tail' : List UInt8}
    (h : frame.bytes ++ tail = frame'.bytes ++ tail') : frame = frame' ∧ tail = tail' := by
  obtain ⟨fin, rsv, opcode, mask, form, payload, fits⟩ := frame
  obtain ⟨fin', rsv', opcode', mask', form', payload', fits'⟩ := frame'
  unfold bytes at h
  simp only [List.cons_append, List.cons.injEq, List.append_assoc] at h
  obtain ⟨hfirst, hsecond, hrest⟩ := h
  obtain ⟨rfl, rfl, rfl⟩ := firstByte_inj hfirst
  obtain ⟨hmasked, hcode⟩ :=
    secondByte_inj (LengthForm.code_lt fits) (LengthForm.code_lt fits') hsecond
  obtain ⟨rfl, hlength, hrest⟩ := LengthForm.eq_of_code fits fits' hcode hrest
  have hmask : mask = mask' ∧ payload ++ tail = payload' ++ tail' := by
    cases mask <;> cases mask' <;> simp only [Option.isSome_none, Option.isSome_some,
      reduceCtorEq] at hmasked
    · exact ⟨rfl, hrest⟩
    · obtain ⟨hkey, hrest⟩ := List.append_inj hrest (by simp [maskBytes])
      exact ⟨congrArg some (List.ofFn_injective hkey), hrest⟩
  obtain ⟨rfl, hpayload⟩ := hmask
  obtain ⟨rfl, rfl⟩ := List.append_inj hpayload hlength
  exact ⟨rfl, rfl⟩

/-- Whoever reads frames off the beginning of a stream of frames reads those. -/
theorem isPrefix_of_flatMap : ∀ {frames frames' : List WebSocketFrame},
    frames.flatMap bytes <+: frames'.flatMap bytes → frames <+: frames'
  | [], _, _ => List.nil_prefix
  | frame :: frames, [], h => by
    rw [List.flatMap_nil, List.prefix_nil, List.flatMap_cons] at h
    exact absurd (List.append_eq_nil_iff.1 h).1 (List.cons_ne_nil _ _)
  | frame :: frames, frame' :: frames', ⟨tail, h⟩ => by
    rw [List.flatMap_cons, List.flatMap_cons, List.append_assoc] at h
    obtain ⟨rfl, hrest⟩ := prefix_free h
    exact (List.prefix_cons_inj frame).2 (isPrefix_of_flatMap ⟨tail, hrest⟩)

end WebSocketFrame
