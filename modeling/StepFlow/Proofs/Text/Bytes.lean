import StepFlow.Proofs.Expression.Tokenizing
import StepFlow.Proofs.Panic

/-!
# Texts as bytes

A text is stored as the bytes of its characters. An offset in bytes is the boundary of a character
if it is the length of a part at the front, so parts of a text are cut out where its characters are.
A character below 128 is a byte with its number, and all bytes of the other characters are at least
128: who looks for the former among the bytes will not find them inside of the latter.
-/

namespace StepFlow

open Lexer (byteLength)

variable {s : String} {before inside after : List Char}

/-! ## Parts -/

namespace Risky

variable {ε : Type}

theorem slice_ofList (split : s = String.ofList (before ++ (inside ++ after))) :
    slice s (byteLength before) (byteLength before + byteLength inside) =
      (sure (.ok (String.ofList inside)) : Risky ε String) := by
  rw [← Lexer.utf8ByteSize_ofList, ← Lexer.utf8ByteSize_ofList]
  exact slice_append (by rw [split, String.ofList_append, String.ofList_append])

theorem slice_rest (split : s = String.ofList (before ++ after)) :
    slice s (byteLength before) s.utf8ByteSize =
      (sure (.ok (String.ofList after)) : Risky ε String) := by
  have whole : s = String.ofList (before ++ (after ++ [])) := by rw [split, List.append_nil]
  rw [split, Lexer.utf8ByteSize_ofList, Lexer.byteLength_append, ← split]
  exact slice_ofList whole

end Risky

/-! ## Bytes -/

def bytes (s : String) : List UInt8 := s.toByteArray.data.toList

def bytesOf (cs : List Char) : List UInt8 := cs.flatMap String.utf8EncodeChar

theorem bytes_ofList (cs : List Char) : bytes (String.ofList cs) = bytesOf cs := by
  rw [bytes, String.toByteArray_ofList]
  exact List.toList_data_toByteArray

@[simp] theorem bytesOf_cons (c : Char) (cs : List Char) :
    bytesOf (c :: cs) = String.utf8EncodeChar c ++ bytesOf cs := List.flatMap_cons

theorem bytesOf_append (cs ds : List Char) : bytesOf (cs ++ ds) = bytesOf cs ++ bytesOf ds :=
  List.flatMap_append

theorem length_bytesOf (cs : List Char) : (bytesOf cs).length = byteLength cs := by
  induction cs with
  | nil => rfl
  | cons c cs ih =>
    rw [bytesOf_cons, List.length_append, String.length_utf8EncodeChar, ih]
    rfl

theorem drop_bytes (split : s = String.ofList (before ++ after)) :
    (bytes s).drop (byteLength before) = bytesOf after := by
  rw [split, bytes_ofList, bytesOf_append, ← length_bytesOf, List.drop_left]

/-- A byte of a character that takes several. -/
def IsHigh (b : UInt8) : Prop := 128 ≤ b.toNat

/-- A character that is a byte. -/
def IsSingle (c : Char) : Prop := c.toNat < 128

instance (c : Char) : Decidable (IsSingle c) := inferInstanceAs (Decidable (_ < _))

theorem utf8EncodeChar_single {c : Char} (h : IsSingle c) : String.utf8EncodeChar c = [c.toUInt8] :=
  if_pos (Nat.le_of_lt_succ h)

theorem utf8Size_single {c : Char} (h : IsSingle c) : c.utf8Size = 1 := by
  rw [← String.length_utf8EncodeChar, utf8EncodeChar_single h, List.length_singleton]

theorem isHigh_of_mem {c : Char} (h : ¬IsSingle c) : ∀ b ∈ String.utf8EncodeChar c, IsHigh b := by
  have high (n k : Nat) (hk : 128 ≤ k) (fits : n + k < 256) : IsHigh (UInt8.ofNat (n + k)) := by
    rw [IsHigh, UInt8.toNat_ofNat', Nat.mod_eq_of_lt fits]
    omega
  have large : ¬c.val.toNat ≤ 0x7f := fun small => h (Nat.lt_succ_of_le small)
  intro b mem
  rw [String.utf8EncodeChar, if_neg large] at mem
  split at mem
  · simp only [List.mem_cons, List.not_mem_nil, or_false] at mem
    rcases mem with rfl | rfl
    all_goals exact high _ _ (by omega) (by omega)
  · split at mem
    · simp only [List.mem_cons, List.not_mem_nil, or_false] at mem
      rcases mem with rfl | rfl | rfl
      all_goals exact high _ _ (by omega) (by omega)
    · simp only [List.mem_cons, List.not_mem_nil, or_false] at mem
      rcases mem with rfl | rfl | rfl | rfl
      all_goals exact high _ _ (by omega) (by omega)

theorem length_utf8EncodeChar_pos (c : Char) : 0 < (String.utf8EncodeChar c).length := by
  rw [String.length_utf8EncodeChar]
  exact c.utf8Size_pos

/-- All bytes of a character but the first are high. -/
theorem exists_utf8EncodeChar (c : Char) :
    ∃ b hs, String.utf8EncodeChar c = b :: hs ∧ ∀ h ∈ hs, IsHigh h := by
  obtain ⟨b, hs, encoded⟩ := List.exists_cons_of_length_pos (length_utf8EncodeChar_pos c)
  refine ⟨b, hs, encoded, fun h mem => ?_⟩
  by_cases single : IsSingle c
  · rw [utf8EncodeChar_single single] at encoded
    obtain ⟨-, rfl⟩ := List.cons.inj encoded
    cases mem
  · exact isHigh_of_mem single h (encoded ▸ List.mem_cons_of_mem _ mem)

theorem toNat_toUInt8 {c : Char} (h : IsSingle c) : c.toUInt8.toNat = c.toNat :=
  Nat.mod_eq_of_lt (Nat.lt_trans h (by decide))

theorem toUInt8_inj {c d : Char} (hc : IsSingle c) (hd : IsSingle d) :
    c.toUInt8 = d.toUInt8 ↔ c = d := by
  rw [← UInt8.toNat_inj, toNat_toUInt8 hc, toNat_toUInt8 hd]
  exact ⟨fun h => Char.ext (UInt32.toNat_inj.1 h), fun h => h ▸ rfl⟩

theorem IsHigh.ne {b : UInt8} {c : Char} (h : IsHigh b) (hc : IsSingle c) : b ≠ c.toUInt8 := by
  rintro rfl
  rw [IsHigh, toNat_toUInt8 hc] at h
  exact Nat.not_le_of_lt hc h

/-- The byte in front of a place is one of the character in front of it. -/
theorem exists_byte_before {c : Char} (split : s = String.ofList (before ++ [c] ++ after)) :
    ∃ b ∈ String.utf8EncodeChar c, (bytes s)[byteLength (before ++ [c]) - 1]? = some b := by
  have size : byteLength (before ++ [c]) =
      (bytesOf before).length + (String.utf8EncodeChar c).length := by
    rw [Lexer.byteLength_append, length_bytesOf, String.length_utf8EncodeChar]
    rfl
  have positive := length_utf8EncodeChar_pos c
  have last : (String.utf8EncodeChar c).length - 1 < (String.utf8EncodeChar c).length :=
    Nat.sub_lt positive Nat.one_pos
  refine ⟨_, List.getElem_mem last, ?_⟩
  rw [split, bytes_ofList, bytesOf_append, bytesOf_append, List.append_assoc, size,
    Nat.add_sub_assoc positive, List.getElem?_append_right (Nat.le_add_right ..),
    Nat.add_sub_cancel_left, bytesOf_cons, List.append_assoc,
    List.getElem?_append_left last, List.getElem?_eq_getElem last]

/-- A character below 128 has its byte to itself. -/
theorem eq_toUInt8_iff {b : UInt8} {c d : Char} (hb : b ∈ String.utf8EncodeChar c)
    (hd : IsSingle d) :
    b = d.toUInt8 ↔ c = d := by
  by_cases hc : IsSingle c
  · rw [utf8EncodeChar_single hc, List.mem_singleton] at hb
    rw [hb, toUInt8_inj hc hd]
  · exact iff_of_false ((isHigh_of_mem hc b hb).ne hd) fun same => hc (same ▸ hd)

end StepFlow
