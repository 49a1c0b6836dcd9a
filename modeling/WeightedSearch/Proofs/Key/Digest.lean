/-
The digests of texts.

The digest of a text is made of its bytes, while texts are compared character by character.  The two
agree because a letter of ASCII is one byte and every other character is made of bytes beyond ASCII:
making letters small and taking the bytes may be exchanged.  The end mark is a byte of no character,
so a digest ends where its end mark stands, whatever comes behind it.  Main statements:

* `KeyPolicy.asciiCase_same_iff_map` — texts are the same if with small letters they are equal;
* `KeyPolicy.asciiCase_same_iff_bytes` — and if their bytes with small letters are;
* `KeyPolicy.caseDigest_append_inj` — a digest is told from what follows it;
* `KeyPolicy.asciiCase_digest` — the policy is an equivalence, and the digests tell its classes
  apart.
-/
import Mathlib.Data.List.Basic
import Mathlib.Data.List.Forall2
import WeightedSearch.Key.Policy

namespace WeightedSearch

namespace KeyPolicy

open String (utf8EncodeChar)

/-- The bytes of a character beyond ASCII are beyond ASCII, and none is the end mark. -/
theorem bounds_of_mem_utf8EncodeChar {c : Char} (h : 128 ≤ c.toNat) {b : UInt8}
    (hb : b ∈ utf8EncodeChar c) : 128 ≤ b.toNat ∧ b.toNat < 255 := by
  have hgt : ¬c.val.toNat ≤ 0x7f := Nat.not_le_of_lt h
  obtain ⟨n, rfl, hle, hlt⟩ : ∃ n, b = UInt8.ofNat n ∧ 128 ≤ n ∧ n < 255 := by
    unfold utf8EncodeChar at hb
    rw [if_neg hgt] at hb
    split at hb
    · simp only [List.mem_cons, List.not_mem_nil, or_false] at hb
      rcases hb with rfl | rfl <;> exact ⟨_, rfl, by omega, by omega⟩
    · split at hb
      · simp only [List.mem_cons, List.not_mem_nil, or_false] at hb
        rcases hb with rfl | rfl | rfl <;> exact ⟨_, rfl, by omega, by omega⟩
      · simp only [List.mem_cons, List.not_mem_nil, or_false] at hb
        rcases hb with rfl | rfl | rfl | rfl <;> exact ⟨_, rfl, by omega, by omega⟩
  rw [UInt8.toNat_ofNat_of_lt' (Nat.lt_succ_of_lt hlt)]
  exact ⟨hle, hlt⟩

theorem utf8EncodeChar_of_lt {c : Char} (h : c.toNat < 128) :
    utf8EncodeChar c = [UInt8.ofNat c.toNat] :=
  if_pos (Nat.le_of_lt_succ h)

theorem endMark_not_mem_utf8EncodeChar (c : Char) : 0xFF ∉ utf8EncodeChar c := by
  rcases Nat.lt_or_ge c.toNat 128 with h | h
  · rw [utf8EncodeChar_of_lt h, List.mem_singleton, ← UInt8.toNat_inj,
      UInt8.toNat_ofNat_of_lt' (Nat.lt_trans h (by decide))]
    exact Nat.ne_of_gt (Nat.lt_trans h (by decide))
  · intro hmem
    exact Nat.lt_irrefl 255 (bounds_of_mem_utf8EncodeChar h hmem).2

theorem lower_of_lt {n : Nat} (h : n < 128) : (Char.ofNat n).toLower.toNat < 128 ∧
    (utf8EncodeChar (Char.ofNat n)).map lowerByte = utf8EncodeChar (Char.ofNat n).toLower := by
  revert n
  decide +kernel

theorem toLower_of_le {c : Char} (h : 128 ≤ c.toNat) : c.toLower = c := by
  refine dif_neg fun hupper => ?_
  have hz : c.toNat ≤ 90 := UInt32.le_iff_toNat_le.1 hupper.2
  omega

theorem lowerByte_of_le {b : UInt8} (h : 128 ≤ b.toNat) : lowerByte b = b := by
  have hz : ¬b ≤ 90 := fun hz => by
    have hle : b.toNat ≤ 90 := UInt8.le_iff_toNat_le.1 hz
    omega
  simp [lowerByte, hz]

/-- Making a letter small and taking its bytes may be exchanged. -/
theorem map_lowerByte_utf8EncodeChar (c : Char) :
    (utf8EncodeChar c).map lowerByte = utf8EncodeChar c.toLower := by
  rcases Nat.lt_or_ge c.toNat 128 with h | h
  · have hc := (lower_of_lt h).2
    rwa [Char.ofNat_toNat] at hc
  · rw [toLower_of_le h]
    calc (utf8EncodeChar c).map lowerByte = (utf8EncodeChar c).map id :=
          List.map_congr_left fun b hb => lowerByte_of_le (bounds_of_mem_utf8EncodeChar h hb).1
      _ = utf8EncodeChar c := List.map_id _

/-- A character beyond ASCII is no letter of another case. -/
theorem eq_of_toLower_eq {c d : Char} (hc : 128 ≤ c.toNat) (h : c.toLower = d.toLower) :
    c = d := by
  rw [toLower_of_le hc] at h
  rcases Nat.lt_or_ge d.toNat 128 with hd | hd
  · -- making a letter of ASCII small does not leave ASCII
    have hlt := (lower_of_lt hd).1
    rw [Char.ofNat_toNat, ← h] at hlt
    omega
  · rw [h, toLower_of_le hd]

theorem sameIgnoringCase_iff {s t : List Char} :
    sameIgnoringCase s t = true ↔ s.map Char.toLower = t.map Char.toLower := by
  induction s generalizing t with
  | nil => cases t <;> simp [sameIgnoringCase]
  | cons c s ih =>
    cases t with
    | nil => simp [sameIgnoringCase]
    | cons d t => simp [sameIgnoringCase, ih]

/-- Texts are the same if they are equal with small letters. -/
theorem asciiCase_same_iff_map {a b : String} :
    asciiCase.same a b = true ↔ a.toList.map Char.toLower = b.toList.map Char.toLower :=
  sameIgnoringCase_iff

theorem flatMap_utf8EncodeChar_inj {s t : List Char} :
    s.flatMap utf8EncodeChar = t.flatMap utf8EncodeChar ↔ s = t := by
  refine ⟨fun h => String.ofList_injective ?_, fun h => h ▸ rfl⟩
  rw [← String.toByteArray_inj, String.toByteArray_ofList, String.toByteArray_ofList, List.utf8Encode,
    List.utf8Encode, h]

/-- The bytes of a text with small letters are those of its characters made small. -/
theorem map_lowerByte_flatMap (s : List Char) :
    (s.flatMap utf8EncodeChar).map lowerByte = (s.map Char.toLower).flatMap utf8EncodeChar := by
  simp only [List.map_flatMap, List.flatMap_map, map_lowerByte_utf8EncodeChar]

theorem toList_data_toByteArray (a : String) :
    a.toByteArray.data.toList = a.toList.flatMap utf8EncodeChar := by
  conv_lhs => rw [← String.ofList_toList (s := a)]
  rw [String.toByteArray_ofList, List.utf8Encode, List.data_toByteArray]

/-- Texts are the same if their bytes with small letters are equal. -/
theorem asciiCase_same_iff_bytes {a b : String} :
    asciiCase.same a b = true ↔
      a.toByteArray.data.toList.map lowerByte = b.toByteArray.data.toList.map lowerByte := by
  simp only [toList_data_toByteArray, map_lowerByte_flatMap, flatMap_utf8EncodeChar_inj,
    asciiCase_same_iff_map]

theorem caseDigest_eq (a : String) :
    caseDigest a = a.toByteArray.data.toList.map lowerByte ++ [0xFF] := by
  rw [toList_data_toByteArray, caseDigest]

theorem endMark_not_mem (a : String) : 0xFF ∉ a.toByteArray.data.toList.map lowerByte := by
  rw [toList_data_toByteArray, map_lowerByte_flatMap, List.mem_flatMap]
  rintro ⟨c, -, hc⟩
  exact endMark_not_mem_utf8EncodeChar c hc

/-- The end mark of a digest is the first in a row of digests. -/
theorem takeWhile_caseDigest_append (a : String) (r : List UInt8) :
    (caseDigest a ++ r).takeWhile (· != 0xFF) = a.toByteArray.data.toList.map lowerByte := by
  have hbytes : ∀ b ∈ a.toByteArray.data.toList.map lowerByte, (b != 0xFF) = true := by
    intro b hb
    rw [bne_iff_ne]
    rintro rfl
    exact endMark_not_mem a hb
  rw [caseDigest_eq, List.append_assoc, List.takeWhile_append_of_pos hbytes]
  simp

theorem caseDigest_append_inj {a b : String} {r r' : List UInt8} :
    caseDigest a ++ r = caseDigest b ++ r' ↔ asciiCase.same a b = true ∧ r = r' := by
  rw [asciiCase_same_iff_bytes]
  constructor
  · intro h
    -- both sides are cut at the first end mark, which is that of the first digest
    have hbytes := congrArg (List.takeWhile (· != 0xFF)) h
    rw [takeWhile_caseDigest_append, takeWhile_caseDigest_append] at hbytes
    rw [caseDigest_eq, caseDigest_eq, hbytes] at h
    exact ⟨hbytes, List.append_cancel_left h⟩
  · rintro ⟨hbytes, rfl⟩
    rw [caseDigest_eq, caseDigest_eq, hbytes]

theorem caseDigest_inj {a b : String} :
    caseDigest a = caseDigest b ↔ asciiCase.same a b = true := by
  rw [← List.append_nil (caseDigest a), ← List.append_nil (caseDigest b), caseDigest_append_inj,
    and_iff_left rfl]

theorem caseDigest_prefix_iff {a b : String} :
    caseDigest a <+: caseDigest b ↔ asciiCase.same a b = true := by
  refine ⟨?_, fun h => (caseDigest_inj.2 h) ▸ List.prefix_rfl⟩
  rintro ⟨r, h⟩
  rw [← List.append_nil (caseDigest b), caseDigest_append_inj] at h
  exact h.1

theorem flatMap_caseDigest_eq_iff {as bs : List String} :
    as.flatMap caseDigest = bs.flatMap caseDigest ↔
      List.Forall₂ (fun a b => asciiCase.same a b = true) as bs := by
  -- no digest is empty, so a row cannot end before the other
  have hne : ∀ a r, caseDigest a ++ r ≠ [] := fun a r => by simp [caseDigest_eq]
  induction as generalizing bs with
  | nil =>
    cases bs with
    | nil => simp
    | cons b bs => simpa using (hne b (bs.flatMap caseDigest)).symm
  | cons a as ih =>
    cases bs with
    | nil => simpa using hne a (as.flatMap caseDigest)
    | cons b bs =>
      rw [List.flatMap_cons, List.flatMap_cons, caseDigest_append_inj, List.forall₂_cons]
      exact and_congr_right fun _ => ih

/-- A character beyond ASCII stands at the same places in texts that are the same. -/
theorem getElem?_of_same {a b : String} (h : asciiCase.same a b = true) {i : Nat} {c : Char}
    (hc : 128 ≤ c.toNat) (ha : a.toList[i]? = some c) : b.toList[i]? = some c := by
  have hmap := congrArg (·[i]?) (asciiCase_same_iff_map.1 h)
  simp only [List.getElem?_map, ha, Option.map_some] at hmap
  obtain ⟨d, hd, hlower⟩ := Option.map_eq_some_iff.1 hmap.symm
  rw [hd, eq_of_toLower_eq hc hlower.symm]

theorem asciiCase_lawful : asciiCase.Lawful where
  refl _ := asciiCase_same_iff_map.2 rfl
  symm _ _ h := asciiCase_same_iff_map.2 (asciiCase_same_iff_map.1 h).symm
  trans _ _ _ h h' :=
    asciiCase_same_iff_map.2 ((asciiCase_same_iff_map.1 h).trans (asciiCase_same_iff_map.1 h'))

/-- Comparing texts without regard to the case of ASCII letters is an equivalence. Texts that are
the same have equal digests, and of others no digest begins with the other; so the digests of
several texts in a row tell which texts they are of. Characters beyond ASCII are only the same as
themselves. -/
theorem asciiCase_digest :
    asciiCase.Lawful ∧
    (∀ a b, (caseDigest a = caseDigest b ↔ asciiCase.same a b = true) ∧
      (asciiCase.same a b = false →
        ¬caseDigest a <+: caseDigest b ∧ ¬caseDigest b <+: caseDigest a)) ∧
    (∀ as bs : List String, as.flatMap caseDigest = bs.flatMap caseDigest ↔
      List.Forall₂ (fun a b => asciiCase.same a b = true) as bs) ∧
    ∀ a b, asciiCase.same a b = true → ∀ (i : Nat) (c : Char), 128 ≤ c.toNat →
      (a.toList[i]? = some c ↔ b.toList[i]? = some c) := by
  refine ⟨asciiCase_lawful, fun a b => ⟨caseDigest_inj, fun hnot => ?_⟩,
    fun as bs => flatMap_caseDigest_eq_iff, fun a b h i c hc => ?_⟩
  · rw [caseDigest_prefix_iff, caseDigest_prefix_iff, Bool.not_eq_true, Bool.not_eq_true]
    exact ⟨hnot, Bool.eq_false_iff.2 fun h => Bool.eq_false_iff.1 hnot (asciiCase_lawful.symm b a h)⟩
  · exact ⟨getElem?_of_same h hc, getElem?_of_same (asciiCase_lawful.symm a b h) hc⟩

/-- Letters with an accent keep their case, and other characters beyond ASCII their places. -/
theorem asciiCase_digest_accented :
    (asciiCase.same "Été" "éTÉ" = false ∧ ¬caseDigest "Été" <+: caseDigest "éTÉ") ∧
    asciiCase.same "Fußball" "fUßBALL" = true ∧ "fUßBALL".toList[2]? = some 'ß' := by
  have hnot : asciiCase.same "Été" "éTÉ" = false := by decide
  have hsame : asciiCase.same "Fußball" "fUßBALL" = true := by decide
  obtain ⟨-, hdigests, -, hplaces⟩ := asciiCase_digest
  exact ⟨⟨hnot, ((hdigests _ _).2 hnot).1⟩, hsame, (hplaces _ _ hsame 2 'ß' (by decide)).1 rfl⟩

end KeyPolicy

end WeightedSearch
