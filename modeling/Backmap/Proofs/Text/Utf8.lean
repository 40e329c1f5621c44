import Backmap.Text.Utf8

/-!
# Decoding ASCII
-/

namespace Backmap.Text.Utf8

theorem loop_toList (bytes : ByteArray) (i : Nat) (done : List UInt8) :
    ByteArray.toList.loop bytes i done = done.reverse ++ bytes.data.toList.drop i := by
  fun_induction ByteArray.toList.loop bytes i done with
  | case1 i done hi ih =>
      have hlength : i < bytes.data.toList.length := by simpa using hi
      rw [ih, List.drop_eq_getElem_cons hlength]
      simp [ByteArray.get!, hi]
  | case2 i done hi =>
      have hlength : bytes.data.toList.length ≤ i := by simpa using Nat.le_of_not_lt hi
      rw [List.drop_eq_nil_of_le hlength, List.append_nil]

theorem toList_eq (bytes : ByteArray) : bytes.toList = bytes.data.toList := loop_toList bytes 0 []

theorem decodeFrom_ascii {bytes : List UInt8} (h : ∀ b ∈ bytes, b.toNat < 0x80) (done : List Char) :
    decodeFrom none bytes done = done.reverse ++ bytes.map fun b => Char.ofNat b.toNat := by
  induction bytes generalizing done with
  | nil => exact (List.append_nil _).symm
  | cons b bytes ih =>
      obtain ⟨hb, hbytes⟩ := List.forall_mem_cons.mp h
      have hstep : step none b.toNat = ([Char.ofNat b.toNat], none) := if_pos hb
      rw [decodeFrom, hstep]
      simp [ih hbytes]

theorem decode_ascii {bytes : List UInt8} (h : ∀ b ∈ bytes, b.toNat < 0x80) :
    decode ⟨bytes.toArray⟩ = bytes.map fun b => Char.ofNat b.toNat := by
  rw [decode, toList_eq, decodeFrom_ascii h]
  rfl

end Backmap.Text.Utf8
