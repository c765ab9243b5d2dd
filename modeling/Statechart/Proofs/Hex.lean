import Statechart.Uuid

/-!
# Hexadecimal digits read back

A byte is read from its two digits, and an identifier from its five groups of them.
-/

namespace Statechart

namespace Text

theorem hexDigit?_hexChar : ∀ n < 16, hexDigit? (hexChar n) = some n := by decide

theorem bytesOfHex?_hexByte (bytes : List UInt8) :
    bytesOfHex? (bytes.flatMap hexByte) = some bytes := by
  induction bytes with
  | nil => rfl
  | cons b bytes ih =>
    have hlt := b.toNat_lt
    have hhigh := hexDigit?_hexChar (b.toNat / 16) (by omega)
    have hlow := hexDigit?_hexChar (b.toNat % 16) (by omega)
    have hbyte : (b.toNat / 16 * 16 + b.toNat % 16).toUInt8 = b := by
      rw [Nat.div_add_mod']
      exact UInt8.ofNat_toNat
    simp only [List.flatMap_cons, hexByte, List.cons_append, List.nil_append,
      bytesOfHex?, hhigh, hlow, ih, Option.bind_eq_bind, Option.bind_some, hbyte]

end Text

namespace Uuid

open Text

theorem plain?_hexByte (u : Uuid) : plain? (u.bytes.flatMap hexByte) = some u := by
  rw [plain?, bytesOfHex?_hexByte, Option.bind_some, ofBytes?, dif_pos u.sixteen]

/-- Five groups of digits with hyphens between them. -/
theorem parse_groups {a b c d e : List Char} (ha : a.length = 8) (hb : b.length = 4)
    (hc : c.length = 4) (hd : d.length = 4) (he : e.length = 12) :
    parse (String.ofList (a ++ '-' :: b ++ '-' :: c ++ '-' :: d ++ '-' :: e)) =
      plain? (a ++ b ++ c ++ d ++ e) := by
  have hlength : (a ++ '-' :: b ++ '-' :: c ++ '-' :: d ++ '-' :: e).length = 36 := by
    simp [ha, hb, hc, hd, he]
  have hlabel : (a ++ '-' :: b ++ '-' :: c ++ '-' :: d ++ '-' :: e).take 9 ≠ label := by
    intro hlabel
    have heighth := congrArg (·[8]?) hlabel
    simp [ha, label] at heighth
  have hhyphens : hyphenated? (a ++ '-' :: b ++ '-' :: c ++ '-' :: d ++ '-' :: e) =
      plain? (a ++ b ++ c ++ d ++ e) := by
    rw [hyphenated?, if_pos (by simp [ha, hb, hc, hd, he])]
    simp [ha, hb, hc, hd, List.drop_append, List.drop_eq_nil_of_le]
  simp only [parse, String.toList_ofList]
  rw [if_neg (by omega), if_neg (by omega), if_neg hlabel, hhyphens]

/-- The text of an identifier is read as the identifier. -/
theorem parse_render (u : Uuid) : parse u.render = some u := by
  have hlength : (u.bytes.flatMap hexByte).length = 32 := by
    simp [List.length_flatMap, hexByte, List.map_const', u.sixteen]
  rw [← u.plain?_hexByte, render]
  generalize u.bytes.flatMap hexByte = ds at hlength ⊢
  have hgroups := parse_groups (a := ds.take 8) (b := (ds.drop 8).take 4) (c := (ds.drop 12).take 4)
    (d := (ds.drop 16).take 4) (e := ds.drop 20) (by simp [hlength]) (by simp [hlength])
      (by simp [hlength])
    (by simp [hlength]) (by simp [hlength])
  have hwhole : ds.take 8 ++ (ds.drop 8).take 4 ++ (ds.drop 12).take 4 ++ (ds.drop 16).take 4 ++
      ds.drop 20 = ds := by
    have hsplit (m n : Nat) : (ds.drop m).take n ++ ds.drop (m + n) = ds.drop m := by
      rw [← List.drop_drop, List.take_append_drop]
    rw [List.append_assoc, List.append_assoc, List.append_assoc, hsplit 16 4,
      hsplit 12 4, hsplit 8 4, List.take_append_drop]
  rw [hwhole] at hgroups
  exact hgroups

end Uuid
end Statechart
