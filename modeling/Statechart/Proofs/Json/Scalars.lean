import Mathlib.Algebra.Ring.Int.Defs
import Mathlib.Tactic.SplitIfs
import Statechart.Json.Printer
import Statechart.Json.Tree
import Statechart.Proofs.Hex

/-!
# Strings and numbers read back

A quoted string is read up to its closing quote. A number is read up to where it ends, so what
matters is whether the number's own text is one literal that denotes the number. For integers of 64
bits it is.
-/

namespace Statechart.Json

open Json.Tree

/-! ## Strings -/

/-- A character is written after a backslash, or by its number, or as it is. -/
theorem escapeChar_cases (c : Char) :
    (∃ e, escapeChar c = ['\\', e] ∧ escape? e = some c) ∨
      (c.toNat < 0x20 ∧
        escapeChar c = ['\\', 'u', '0', '0', Text.hexChar (c.toNat / 16),
          Text.hexChar (c.toNat % 16)]) ∨
      (escapeChar c = [c] ∧ c ≠ '"' ∧ c ≠ '\\' ∧ 0x20 ≤ c.toNat) := by
    unfold escapeChar
    split_ifs with hquote hslash hb hf hn hr ht hlow
    · exact .inl ⟨'"', rfl, by rw [hquote]; rfl⟩
    · exact .inl ⟨'\\', rfl, by rw [hslash]; rfl⟩
    · exact .inl ⟨'b', rfl, by rw [hb]; rfl⟩
    · exact .inl ⟨'f', rfl, by rw [hf]; rfl⟩
    · exact .inl ⟨'n', rfl, by rw [hn]; rfl⟩
    · exact .inl ⟨'r', rfl, by rw [hr]; rfl⟩
    · exact .inl ⟨'t', rfl, by rw [ht]; rfl⟩
    · exact .inr (.inl ⟨hlow, rfl⟩)
    · exact .inr (.inr ⟨rfl, hquote, hslash, Nat.le_of_not_lt hlow⟩)

/-- Two digits after two zeros. -/
theorem hexNat?_low {n : Nat} (h : n < 0x20) :
    Text.hexNat? ['0', '0', Text.hexChar (n / 16), Text.hexChar (n % 16)] = some n := by
  have hhigh := Text.hexDigit?_hexChar (n / 16) (by omega)
  have hlow := Text.hexDigit?_hexChar (n % 16) (by omega)
  have hzero : Text.hexDigit? '0' = some 0 := by decide
  simp only [Text.hexNat?, List.foldl, hzero, hhigh, hlow, Option.bind_eq_bind, Option.bind_some]
  exact congrArg some (by omega)

/-- A character is read from what it is written as. -/
theorem stringBody_escapeChar (c : Char) (rest acc : List Char) :
    stringBody (escapeChar c ++ rest) none true acc = stringBody rest none true (c :: acc) := by
  obtain ⟨e, hc, he⟩ | ⟨hlow, hc⟩ | ⟨hc, hquote, hslash, hhigh⟩ := escapeChar_cases c
  · rw [hc]
    unfold escape? at he
    split at he <;> cases he <;> simp [stringBody, escape?]
  · have hleading : isLeading c.toNat = false := by simp only [isLeading]; simp; omega
    have htrailing : isTrailing c.toNat = false := by simp only [isTrailing]; simp; omega
    simp only [hc, List.cons_append, List.nil_append, stringBody, hexNat?_low hlow,
      Option.bind_eq_bind, Option.bind_some, hleading, htrailing, Char.ofNat_toNat]
    rfl
  · rw [hc, List.singleton_append, stringBody, if_neg (not_or.mpr ⟨Nat.not_lt.mpr hhigh, hslash⟩)]
    · rfl
    · exact hquote
    · exact fun _ _ _ _ _ h => absurd h hslash
    · exact fun _ _ h => absurd h hslash

theorem stringTail_quote (s : String) (rest : List Char) :
    stringTail (s.toList.flatMap escapeChar ++ '"' :: rest) = some (some s, rest) := by
  have hbody : ∀ cs acc, stringBody (cs.flatMap escapeChar ++ '"' :: rest) none true acc =
      some (some (String.ofList (acc.reverse ++ cs)), rest) := by
    intro cs
    induction cs with
    | nil => intro acc; simp [stringBody]
    | cons c cs ih =>
      intro acc
      rw [List.flatMap_cons, List.append_assoc, stringBody_escapeChar, ih, List.reverse_cons,
        List.append_assoc, List.singleton_append]
  rw [stringTail, hbody, List.reverse_nil, List.nil_append, String.ofList_toList]

/-! ## Numbers -/

/-- The text goes on with nothing that a number could go on with. -/
def Ends (rest : List Char) : Prop :=
  ∀ c ∈ rest.head?, c.isDigit = false ∧ c ≠ '.' ∧ c ≠ 'e' ∧ c ≠ 'E'

variable {cs rest r ds : List Char}

theorem digits_cons {c : Char} (h : c.isDigit = true) :
    digits (c :: cs) = (digit c :: (digits cs).1, (digits cs).2) := by
  rw [digits, List.takeWhile_cons_of_pos h, List.dropWhile_cons_of_pos h]
  rfl

theorem digits_cons_of_not {c : Char} (h : c.isDigit = false) :
    digits (c :: cs) = ([], c :: cs) := by
  have hneg : ¬ c.isDigit = true := by rw [h]; decide
  rw [digits, List.takeWhile_cons_of_neg hneg, List.dropWhile_cons_of_neg hneg]
  rfl

theorem digits_append (hrest : Ends rest) :
    digits (cs ++ rest) = ((digits cs).1, (digits cs).2 ++ rest) := by
  induction cs with
  | nil =>
    cases rest with
    | nil => rfl
    | cons c rest => exact digits_cons_of_not (hrest c rfl).1
  | cons c cs ih =>
    cases hc : c.isDigit with
    | true => rw [List.cons_append, digits_cons hc, digits_cons hc, ih]
    | false => rw [List.cons_append, digits_cons_of_not hc, digits_cons_of_not hc, List.cons_append]

theorem wholePart?_append {ns : List Nat} (h : wholePart? cs = some (ns, r)) (hrest : Ends rest) :
    wholePart? (cs ++ rest) = some (ns, r ++ rest) := by
  rw [wholePart?] at h ⊢
  rw [digits_append hrest]
  cases hds : digits cs with
  | mk ds end_ =>
    rw [hds] at h
    split at h <;> simp_all

theorem fractionPart?_of_ne {c : Char} (h : c ≠ '.') :
    fractionPart? (c :: cs) = some ([], c :: cs) := by
  simp [fractionPart?, h]

theorem fractionPart?_append {ns : List Nat} (h : fractionPart? cs = some (ns, r))
    (hrest : Ends rest) : fractionPart? (cs ++ rest) = some (ns, r ++ rest) := by
  cases cs with
  | nil =>
    obtain ⟨rfl, rfl⟩ : [] = ns ∧ [] = r := by simpa [fractionPart?] using h
    cases rest with
    | nil => rfl
    | cons c rest =>
      have hc := (hrest c rfl).2.1
      simp [fractionPart?, hc]
  | cons c cs =>
    by_cases hc : c = '.'
    · subst hc
      simp only [List.cons_append, fractionPart?, digits_append hrest] at h ⊢
      cases hds : digits cs with
      | mk ds end_ =>
        rw [hds] at h
        split at h <;> simp_all
    · rw [fractionPart?_of_ne hc] at h
      rw [List.cons_append, fractionPart?_of_ne hc]
      cases h
      rfl

/-- The digits of an exponent after its sign. -/
def exponentDigits (down : Bool) (cs : List Char) : Option (Option (Bool × List Nat) × List Char) :=
  match digits cs with
  | ([], _) => none
  | (ds, rest) => some (some (down, ds), rest)

section
variable {c d : Char} {down : Bool} {e : Option (Bool × List Nat)}

theorem exponentPart?_of_not (h : ¬ (c = 'e' ∨ c = 'E')) :
    exponentPart? (c :: cs) = some (none, c :: cs) :=
  if_neg h

theorem exponentPart?_plus (h : c = 'e' ∨ c = 'E') :
    exponentPart? (c :: '+' :: cs) = exponentDigits false cs :=
  if_pos h

theorem exponentPart?_minus (h : c = 'e' ∨ c = 'E') :
    exponentPart? (c :: '-' :: cs) = exponentDigits true cs :=
  if_pos h

theorem exponentPart?_unsigned (h : c = 'e' ∨ c = 'E') (hplus : d ≠ '+') (hminus : d ≠ '-') :
    exponentPart? (c :: d :: cs) = exponentDigits false (d :: cs) := by
  rw [exponentPart?, if_pos h]
  · rfl
  · exact fun rest hcons => hplus (List.cons.inj hcons).1
  · exact fun rest hcons => hminus (List.cons.inj hcons).1

theorem exponentDigits_append (h : exponentDigits down cs = some (e, r)) (hrest : Ends rest) :
    exponentDigits down (cs ++ rest) = some (e, r ++ rest) := by
  rw [exponentDigits] at h ⊢
  rw [digits_append hrest]
  cases hds : digits cs with
  | mk ds end_ =>
    rw [hds] at h
    split at h <;> simp_all

theorem exponentPart?_append (h : exponentPart? cs = some (e, r)) (hrest : Ends rest) :
    exponentPart? (cs ++ rest) = some (e, r ++ rest) := by
  cases cs with
  | nil =>
    obtain ⟨rfl, rfl⟩ : none = e ∧ [] = r := by simpa [exponentPart?] using h
    cases rest with
    | nil => rfl
    | cons c rest => exact exponentPart?_of_not (not_or.mpr (hrest c rfl).2.2)
  | cons c cs =>
    by_cases hc : c = 'e' ∨ c = 'E'
    · cases cs with
      | nil =>
        exact absurd ((if_pos hc).symm.trans h) nofun
      | cons d cs =>
        by_cases hplus : d = '+'
        · subst hplus
          rw [exponentPart?_plus hc] at h
          exact (exponentPart?_plus hc).trans (exponentDigits_append h hrest)
        by_cases hminus : d = '-'
        · subst hminus
          rw [exponentPart?_minus hc] at h
          exact (exponentPart?_minus hc).trans (exponentDigits_append h hrest)
        rw [exponentPart?_unsigned hc hplus hminus] at h
        exact (exponentPart?_unsigned hc hplus hminus).trans (exponentDigits_append h hrest)
    · rw [exponentPart?_of_not hc] at h
      rw [List.cons_append, exponentPart?_of_not hc]
      cases h
      rfl

end

/-- What follows the sign of a number. -/
def unsigned? (negative : Bool) (cs : List Char) : Option (Literal × List Char) := do
  let (whole, cs) ← wholePart? cs
  let (fraction, cs) ← fractionPart? cs
  let (exponent, cs) ← exponentPart? cs
  some (⟨negative, whole, fraction, exponent⟩, cs)

theorem literal?_minus : literal? ('-' :: cs) = unsigned? true cs := rfl

theorem literal?_of_ne {c : Char} (h : c ≠ '-') :
    literal? (c :: cs) = unsigned? false (c :: cs) := by
  rw [literal?]
  · rfl
  · exact fun rest hcons => h (List.cons.inj hcons).1

variable {l : Literal}

theorem unsigned?_append {negative : Bool} (h : unsigned? negative cs = some (l, r))
    (hrest : Ends rest) : unsigned? negative (cs ++ rest) = some (l, r ++ rest) := by
  simp only [unsigned?, Option.bind_eq_bind, Option.bind_eq_some_iff, Prod.exists] at h
  obtain ⟨whole, cs₁, hwhole, fraction, cs₂, hfraction, exponent, cs₃, hexponent, hl⟩ := h
  cases hl
  simp only [unsigned?, Option.bind_eq_bind, wholePart?_append hwhole hrest,
    fractionPart?_append hfraction hrest, exponentPart?_append hexponent hrest, Option.bind_some]

/-- A literal is read up to where it ends. -/
theorem literal?_append (h : literal? cs = some (l, r)) (hrest : Ends rest) :
    literal? (cs ++ rest) = some (l, r ++ rest) := by
  cases cs with
  | nil => exact absurd h nofun
  | cons c cs =>
    by_cases hc : c = '-'
    · subst hc
      rw [literal?_minus] at h
      exact literal?_minus.trans (unsigned?_append h hrest)
    · rw [literal?_of_ne hc] at h
      exact (literal?_of_ne hc).trans (unsigned?_append h hrest)

theorem literal?_head (h : literal? cs = some (l, r)) :
    ∃ c ds, cs = c :: ds ∧ (c = '-' ∨ c.isDigit = true) := by
  cases cs with
  | nil => exact absurd h nofun
  | cons c cs =>
    refine ⟨c, cs, rfl, ?_⟩
    by_cases hc : c = '-'
    · exact .inl hc
    · cases hdigit : c.isDigit with
      | true => exact .inr rfl
      | false =>
        rw [literal?_of_ne hc, unsigned?, wholePart?, digits_cons_of_not hdigit] at h
        exact absurd h nofun

/-- The text of a number is one literal, which denotes the number. -/
def Number.Legible (n : Number) : Prop :=
  ∃ l, literal? n.render.toList = some (l, []) ∧ l.number? = some n

theorem digits_of_isDigit (h : ∀ c ∈ cs, c.isDigit = true) : digits cs = (cs.map digit, []) := by
  induction cs with
  | nil => rfl
  | cons c cs ih =>
    rw [digits_cons (h c List.mem_cons_self), ih fun c hc => h c (List.mem_cons_of_mem _ hc)]
    rfl

theorem natOfDigits_map (cs : List Char) :
    Literal.natOfDigits (cs.map digit) = Nat.ofDigitChars 10 cs 0 := by
  rw [Literal.natOfDigits, List.foldl_map, Nat.ofDigitChars_eq_foldl]
  simp only [Nat.mul_comm, digit]

theorem digit_digitChar : ∀ n < 10, digit (Nat.digitChar n) = n := by decide

/-- Only zero is written with a zero in front. -/
theorem toDigits_head {n : Nat} (h : n ≠ 0) :
    ∃ c cs, Nat.toDigits 10 n = c :: cs ∧ digit c ≠ 0 := by
  induction n using Nat.strongRecOn with
  | ind n ih =>
    by_cases hn : n < 10
    · refine ⟨Nat.digitChar n, [], Nat.toDigits_of_lt_base hn, ?_⟩
      rwa [digit_digitChar n hn]
    · obtain ⟨c, cs, hcs, hc⟩ := ih (n / 10) (by omega) (by omega)
      have hsplit : Nat.toDigits 10 (n / 10) ++ Nat.toDigits 10 (n % 10) = Nat.toDigits 10 n := by
        rw [Nat.toDigits_append_toDigits (by decide) (by omega) (Nat.mod_lt _ (by decide)),
          Nat.div_add_mod]
      exact ⟨c, cs ++ Nat.toDigits 10 (n % 10), by rw [← hsplit, hcs, List.cons_append], hc⟩

theorem wholePart?_toDigits (n : Nat) :
    wholePart? (Nat.toDigits 10 n) = some ((Nat.toDigits 10 n).map digit, []) := by
  have hall : ∀ c ∈ Nat.toDigits 10 n, c.isDigit = true := fun c hc =>
    Nat.isDigit_of_mem_toDigits (by decide) (by decide) hc
  by_cases hn : n = 0
  · subst hn
    rfl
  · obtain ⟨c, cs, hcs, hc⟩ := toDigits_head hn
    rw [wholePart?, digits_of_isDigit hall, hcs, List.map_cons]
    split <;> simp_all

theorem unsigned?_toDigits (negative : Bool) (n : Nat) :
    unsigned? negative (Nat.toDigits 10 n) =
      some (⟨negative, (Nat.toDigits 10 n).map digit, [], none⟩, []) := by
  rw [unsigned?, wholePart?_toDigits]
  rfl

theorem natOfDigits_toDigits (n : Nat) :
    Literal.natOfDigits ((Nat.toDigits 10 n).map digit) = n := by
  rw [natOfDigits_map, Nat.ofDigitChars_ten_toDigits]

theorem literal?_toDigits (n : Nat) :
    literal? (Nat.toDigits 10 n) = unsigned? false (Nat.toDigits 10 n) := by
  cases hcs : Nat.toDigits 10 n with
  | nil => exact absurd hcs Nat.toDigits_ne_nil
  | cons c cs =>
    have hc : c.isDigit = true :=
      Nat.isDigit_of_mem_toDigits (by decide) (by decide) (hcs ▸ List.mem_cons_self)
    refine literal?_of_ne ?_
    rintro rfl
    exact absurd hc (by decide)

theorem Number.legible_int {n : Int} (hlow : -2 ^ 63 ≤ n)
    (hhigh : n < 2 ^ 64) : (Number.int n).Legible := by
  cases n with
  | ofNat n =>
    refine ⟨⟨false, (Nat.toDigits 10 n).map digit, [], none⟩, ?_, ?_⟩
    · rw [show (Number.int (Int.ofNat n)).render.toList = Nat.toDigits 10 n from Nat.toList_repr,
        literal?_toDigits, unsigned?_toDigits]
    · have hn : n < Nat.pow 2 64 := by
        have hcast : (n : Int) < 2 ^ 64 := hhigh
        show n < 2 ^ 64
        omega
      simp only [Literal.number?, natOfDigits_toDigits, List.isEmpty_nil, Option.isNone_none,
        Bool.and_self, hn, if_true]
      rfl
  | negSucc n =>
    have hrender : (Number.int (Int.negSucc n)).render.toList = '-' :: Nat.toDigits 10 (n + 1) := by
      show ("-" ++ Nat.repr (n + 1)).toList = _
      rw [String.toList_append, Nat.toList_repr]
      rfl
    refine ⟨⟨true, (Nat.toDigits 10 (n + 1)).map digit, [], none⟩, ?_, ?_⟩
    · rw [hrender, literal?_minus, unsigned?_toDigits]
    · have hn : 0 < n + 1 ∧ n + 1 ≤ Nat.pow 2 63 := by
        show 0 < n + 1 ∧ n + 1 ≤ 2 ^ 63
        omega
      simp only [Literal.number?, natOfDigits_toDigits, List.isEmpty_nil, Option.isNone_none,
        Bool.and_self, hn, and_self, if_true]
      rfl

end Statechart.Json
