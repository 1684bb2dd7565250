import TypedTables.Digest.Sha256
import TypedTables.Proofs.Text.Quoted
/-!
# TypedTables — texts of digests

Every word of a digest has eight digits in its text and is known by them, so
digests with the same text are the same. Nothing is assumed of the hash: where
different texts have the same digest, their bytes are a collision.
-/

namespace TypedTables

namespace Sha256

variable {v w : UInt32} {vs ws : List UInt32} {text text' : String}

/-- **A collision**: different messages with the same digest. -/
def IsCollision (message message' : List UInt8) : Prop :=
  message ≠ message' ∧ digest message = digest message'

/-! ## Words -/

theorem toList_wordText (w : UInt32) : (wordText w).toList =
    List.replicate (8 - (Nat.toDigits 16 w.toNat).length) '0' ++ Nat.toDigits 16 w.toNat := by
  rw [wordText, String.toList_ofList]

theorem length_wordText (w : UInt32) : (wordText w).toList.length = 8 := by
  have hdigits : (Nat.toDigits 16 w.toNat).length ≤ 8 :=
    (Nat.length_toDigits_le_iff (by decide) (by decide)).2 w.toNat_lt
  rw [toList_wordText, List.length_append, List.length_replicate]
  omega

/-- Zeros in front of a number do not matter. -/
theorem readCodePoint_zeros (k : Nat) (cs : List Char) :
    Text.readCodePoint 0 (List.replicate k '0' ++ cs) = Text.readCodePoint 0 cs := by
  induction k with
  | zero => rfl
  | succ k ih => exact (Text.readCodePoint_digit 0 (d := 0) (by decide)).trans ih

/-- **A word is known by its text.** -/
theorem wordText_inj (h : wordText v = wordText w) : v = w := by
  have hread (w : UInt32) : Text.readCodePoint 0 ((wordText w).toList ++ ['\x7d']) = some (w.toNat, []) := by
    rw [toList_wordText, List.append_assoc, readCodePoint_zeros, Text.readCodePoint_toDigits]
    rfl
  have hnumber : some (v.toNat, ([] : List Char)) = some (w.toNat, []) := by rw [← hread v, h, hread w]
  exact UInt32.toNat_inj.1 (Prod.mk.inj (Option.some.inj hnumber)).1

/-! ## Digests -/

/-- As many words are known by their texts, as all of these are of one length. -/
theorem flatMap_wordText_inj (hlength : vs.length = ws.length)
    (h : (vs.flatMap fun w => (wordText w).toList) = ws.flatMap fun w => (wordText w).toList) : vs = ws := by
  induction vs generalizing ws with
  | nil => exact (List.eq_nil_of_length_eq_zero hlength.symm).symm
  | cons v vs ih =>
    obtain ⟨w, ws, rfl⟩ := List.exists_cons_of_length_eq_add_one hlength.symm
    obtain ⟨hword, hrest⟩ := List.append_inj h ((length_wordText v).trans (length_wordText w).symm)
    rw [wordText_inj (String.toList_inj.1 hword), ih (Nat.succ.inj hlength) hrest]

/-- **Equal digests in digits are equal digests.** -/
theorem digest_eq_of_hexDigest_eq (h : hexDigest text = hexDigest text') :
    digest text.toUTF8.toList = digest text'.toUTF8.toList := by
  have hjoined := congrArg String.toList h
  rw [hexDigest, hexDigest, String.toList_join, String.toList_join, List.flatMap_map, List.flatMap_map] at hjoined
  exact flatMap_wordText_inj rfl hjoined

/-! ## Bytes -/

/-- The bytes from one on, behind those that were taken. -/
theorem toList_loop (bytes : ByteArray) (i : Nat) (taken : List UInt8) :
    ByteArray.toList.loop bytes i taken = taken.reverse ++ bytes.data.toList.drop i := by
  fun_induction ByteArray.toList.loop bytes i taken with
  | case1 i taken hi ih =>
    have hdata : i < bytes.data.toList.length := hi
    have hget : bytes.get! i = bytes.data.toList[i] := getElem!_pos bytes.data i hi
    rw [ih, hget, List.reverse_cons, List.append_assoc, List.singleton_append, List.getElem_cons_drop]
  | case2 i taken hi =>
    rw [List.drop_eq_nil_of_le (Nat.le_of_not_lt hi), List.append_nil]

theorem toList_inj {bytes bytes' : ByteArray} (h : bytes.toList = bytes'.toList) : bytes = bytes' := by
  rw [ByteArray.toList, ByteArray.toList, toList_loop, toList_loop] at h
  exact ByteArray.ext (Array.toList_inj.1 h)

/-- **Texts with the same digest in digits are the same, or else a collision.** -/
theorem isCollision_of_hexDigest_eq (hne : text ≠ text') (h : hexDigest text = hexDigest text') :
    IsCollision text.toUTF8.toList text'.toUTF8.toList := by
  refine ⟨fun hbytes => hne ?_, digest_eq_of_hexDigest_eq h⟩
  exact String.toByteArray_inj.1 (toList_inj hbytes)

end Sha256

end TypedTables
