import Mathlib.Data.List.Forall2
import Mathlib.Data.List.TakeWhile
import Statechart.Proofs.Json.Scalars

/-!
# Texts read back

A value that is written, compactly or on lines of its own, is read as the tree of the value. Both
ways of writing differ in their blanks only, so arrays and objects are read once, with any blanks
around their items; the length of a text bounds the fuel that reading it takes.
-/

namespace Statechart.Json

namespace Tree

variable {cs b b₀ b₁ b₂ rest : List Char} {t : Tree} {fuel : Nat} {texts : List (List Char)}
  {trees : List Tree} {members : List (Option String × Tree)}

/-! ## Blanks -/

def Blank (b : List Char) : Prop := ∀ c ∈ b, isSpace c = true

theorem blank_nil : Blank [] := nofun

theorem blank_space : Blank [' '] := fun c hc => by rw [List.mem_singleton.mp hc]; rfl

theorem skipSpace_blank (h : Blank b) : skipSpace (b ++ cs) = skipSpace cs :=
  List.dropWhile_append_of_pos h

theorem skipSpace_of_not {c : Char} (h : isSpace c = false) : skipSpace (c :: cs) = c :: cs :=
  List.dropWhile_cons_of_neg (by rw [h]; decide)

theorem exists_blank (cs : List Char) : ∃ b, Blank b ∧ cs = b ++ skipSpace cs :=
  ⟨cs.takeWhile isSpace, fun _ hc => List.mem_takeWhile_imp hc,
    List.takeWhile_append_dropWhile.symm⟩

theorem ends_cons {c : Char} (h : c = ',' ∨ c = ']' ∨ c = '\x7d' ∨ isSpace c = true) :
    Ends (c :: rest) := by
  intro d hd
  obtain rfl : c = d := Option.some.inj hd
  obtain rfl | rfl | rfl | hspace := h
  · decide
  · decide
  · decide
  · simp only [isSpace, Bool.or_eq_true, beq_iff_eq] at hspace
    obtain ((rfl | rfl) | rfl) | rfl := hspace <;> decide

theorem ends_blank (hb : Blank b) (h : Ends rest) : Ends (b ++ rest) := by
  cases b with
  | nil => exact h
  | cons c b => exact ends_cons (.inr (.inr (.inr (hb c List.mem_cons_self))))

theorem value_blank (h : Blank b) : value fuel (b ++ cs) = value fuel cs := by
  cases fuel with
  | zero => rfl
  | succ fuel => rw [value, value, skipSpace_blank h]

theorem items_blank (h : Blank b) : items fuel (b ++ cs) = items fuel cs := by
  cases fuel with
  | zero => rfl
  | succ fuel => rw [items, items, value_blank h]

theorem members_blank (h : Blank b) : Tree.members fuel (b ++ cs) = Tree.members fuel cs := by
  cases fuel with
  | zero => rfl
  | succ fuel => rw [Tree.members, Tree.members, skipSpace_blank h]

theorem items_skipSpace : items fuel (skipSpace cs) = items fuel cs := by
  obtain ⟨b, hb, hcs⟩ := exists_blank cs
  conv_rhs => rw [hcs, items_blank hb]

theorem members_skipSpace : Tree.members fuel (skipSpace cs) = Tree.members fuel cs := by
  obtain ⟨b, hb, hcs⟩ := exists_blank cs
  conv_rhs => rw [hcs, members_blank hb]

/-! ## Scalars -/

/-- A text is read as a tree wherever the text ends. -/
def Reads (cs : List Char) (t : Tree) : Prop :=
  ∀ fuel rest, cs.length ≤ fuel → Ends rest → value fuel (cs ++ rest) = some (t, rest)

/-- Reading takes a unit of fuel first. -/
theorem Reads.intro (hne : cs ≠ [])
    (h : ∀ n rest, cs.length ≤ n + 1 → Ends rest → value (n + 1) (cs ++ rest) = some (t, rest)) :
    Reads cs t := by
  intro fuel rest hfuel hrest
  cases fuel with
  | zero => exact absurd (List.length_eq_zero_iff.mp (Nat.le_zero.mp hfuel)) hne
  | succ n => exact h n rest hfuel hrest

theorem reads_null : Reads ['n', 'u', 'l', 'l'] .null := .intro nofun fun _ _ _ _ => rfl

theorem reads_true : Reads ['t', 'r', 'u', 'e'] (.bool true) := .intro nofun fun _ _ _ _ => rfl

theorem reads_false : Reads ['f', 'a', 'l', 's', 'e'] (.bool false) :=
  .intro nofun fun _ _ _ _ => rfl

theorem reads_array_nil : Reads ['[', ']'] (.array []) := .intro nofun fun _ _ _ _ => rfl

theorem reads_object_nil : Reads ['\x7b', '\x7d'] (.object []) := .intro nofun fun _ _ _ _ => rfl

theorem toList_quote (s : String) : (quote s).toList =
    '"' :: (s.toList.flatMap escapeChar ++ ['"']) := by
  rw [quote, String.toList_ofList]

theorem reads_quote (s : String) : Reads (quote s).toList (.string (some s)) := by
  rw [toList_quote]
  refine .intro nofun fun n rest _ _ => ?_
  rw [List.cons_append, List.append_assoc, List.singleton_append]
  exact congrArg (Option.map _) (stringTail_quote s rest)

theorem value_literal {c : Char} (h : c = '-' ∨ c.isDigit = true) :
    value (fuel + 1) (c :: cs) = (literal? (c :: cs)).map fun (l, rest) =>
      (Tree.number l.number?, rest) := by
  have hspace : isSpace c = false := by
    rw [Bool.eq_false_iff]
    intro hspace
    simp only [isSpace, Bool.or_eq_true, beq_iff_eq] at hspace
    obtain ((rfl | rfl) | rfl) | rfl := hspace <;> revert h <;> decide
  rw [value, skipSpace_of_not hspace]
  split <;> simp_all

theorem reads_number {n : Number} (h : n.Legible) : Reads n.render.toList (.number (some n)) := by
  obtain ⟨l, hl, hn⟩ := h
  obtain ⟨c, ds, hcs, hc⟩ := literal?_head hl
  rw [hcs] at hl ⊢
  refine .intro nofun fun _ rest _ hrest => ?_
  have hliteral := literal?_append hl hrest
  rw [List.cons_append] at hliteral ⊢
  rw [value_literal hc, hliteral, Option.map_some]
  exact congrArg (fun n => some (Tree.number n, rest)) hn

/-! ## Arrays and objects -/

/-- No value begins with a closing bracket. -/
theorem items_bracket : items fuel (']' :: cs) = none := by
  cases fuel with
  | zero => rfl
  | succ fuel => cases fuel <;> rfl

theorem members_brace : Tree.members fuel ('\x7d' :: cs) = none := by
  cases fuel <;> rfl

theorem value_array (h : items fuel cs = some (trees, rest)) :
    value (fuel + 1) ('[' :: cs) = some (.array trees, rest) := by
  have hbracket : skipSpace ('[' :: cs) = '[' :: cs := skipSpace_of_not (by decide)
  rw [← items_skipSpace] at h
  simp only [value, hbracket]
  split
  · rename_i hskip
    rw [hskip, items_bracket] at h
    exact absurd h nofun
  · rw [h]
    rfl

theorem value_object (h : Tree.members fuel cs = some (members, rest)) :
    value (fuel + 1) ('\x7b' :: cs) = some (.object members, rest) := by
  have hbrace : skipSpace ('\x7b' :: cs) = '\x7b' :: cs := skipSpace_of_not (by decide)
  rw [← members_skipSpace] at h
  simp only [value, hbrace]
  split
  · rename_i hskip
    rw [hskip, members_brace] at h
    exact absurd h nofun
  · rw [h]
    rfl

/-- Items with commas and blanks between them, up to the closing bracket. -/
theorem items_intercalate (hb₁ : Blank b₁) (hb₂ : Blank b₂) (h : List.Forall₂ Reads texts trees)
    (hne : texts ≠ []) (rest : List Char) : ∀ fuel, ((',' :: b₁).intercalate texts).length < fuel →
      items fuel ((',' :: b₁).intercalate texts ++ (b₂ ++ ']' :: rest)) = some (trees, rest) := by
  induction h with
  | nil => exact absurd rfl hne
  | @cons text tree texts trees htext hrest ih =>
    intro fuel hfuel
    obtain ⟨n, rfl⟩ : ∃ n, fuel = n + 1 := ⟨fuel - 1, by omega⟩
    cases hrest with
    | nil =>
      rw [List.intercalate_singleton] at hfuel ⊢
      have hvalue := htext n (b₂ ++ ']' :: rest) (by omega) (ends_blank hb₂ (ends_cons (by decide)))
      have hclose : skipSpace (b₂ ++ ']' :: rest) = ']' :: rest := by
        rw [skipSpace_blank hb₂, skipSpace_of_not (by decide)]
      simp only [items, hvalue, Option.bind_eq_bind, Option.bind_some, hclose]
    | @cons text' tree' texts trees htext' hrest =>
      rw [List.intercalate_cons_cons] at hfuel ⊢
      simp only [List.length_append, List.length_cons] at hfuel
      -- the comma pays for the unit of fuel that the next item takes
      have hnext := ih (List.cons_ne_nil _ _) n (by omega)
      have hvalue :=
        htext n (',' :: (b₁ ++ ((',' :: b₁).intercalate (text' :: texts) ++ (b₂ ++ ']' :: rest))))
        (by omega) (ends_cons (by decide))
      simp only [List.append_assoc, List.cons_append, items, hvalue,
        Option.bind_eq_bind, Option.bind_some,
        skipSpace_of_not (c := ',') (by decide), items_blank hb₁, hnext, Option.map_some]

/-- Items between brackets. -/
theorem reads_array (hb₀ : Blank b₀) (hb₁ : Blank b₁) (hb₂ : Blank b₂)
    (h : List.Forall₂ Reads texts trees) (hne : texts ≠ []) :
    Reads ('[' :: (b₀ ++ (',' :: b₁).intercalate texts ++ (b₂ ++ [']']))) (.array trees) := by
  refine .intro nofun fun n rest hfuel _ => ?_
  simp only [List.length_append, List.length_cons] at hfuel
  have hitems := items_intercalate hb₁ hb₂ h hne rest n (by omega)
  rw [List.cons_append]
  refine value_array ?_
  simp only [List.append_assoc, List.singleton_append, items_blank hb₀, hitems]

/-- A member: its name in quotes, a colon and its value. -/
def ReadsMember (cs : List Char) (m : Option String × Tree) : Prop :=
  ∃ name b ds, m.1 = some name ∧ Blank b ∧ cs = (quote name).toList ++ ':' ::
    (b ++ ds) ∧ Reads ds m.2

theorem members_cons {name : String} {text : List Char} (hb : Blank b) (htext : Reads text t)
    (hfuel : text.length ≤ fuel) (hrest : Ends rest) :
    Tree.members (fuel + 1) ((quote name).toList ++ ':' :: (b ++ text) ++ rest) =
      match skipSpace rest with
      | ',' :: rest => (Tree.members fuel rest).map fun (xs, rest) => ((some name, t) :: xs, rest)
      | '\x7d' :: rest => some ([(some name, t)], rest)
      | _ => none := by
  have hvalue := htext fuel rest hfuel hrest
  have hquote := stringTail_quote name (':' :: (b ++ (text ++ rest)))
  have hshape : (quote name).toList ++ ':' :: (b ++ text) ++ rest =
      '"' :: (name.toList.flatMap escapeChar ++ '"' :: ':' :: (b ++ (text ++ rest))) := by
    simp [toList_quote]
  rw [hshape]
  show (stringTail (name.toList.flatMap escapeChar ++ '"' :: ':' :: (b ++ (text ++ rest)))).bind _ =
    _
  rw [hquote]
  show (value fuel (b ++ (text ++ rest))).bind _ = _
  rw [value_blank hb, hvalue]
  rfl

/-- Members with commas and blanks between them, up to the closing brace. -/
theorem members_intercalate (hb₁ : Blank b₁) (hb₂ : Blank b₂)
    (h : List.Forall₂ ReadsMember texts members) (hne : texts ≠ []) (rest : List Char) :
    ∀ fuel, ((',' :: b₁).intercalate texts).length < fuel →
      Tree.members fuel ((',' :: b₁).intercalate texts ++ (b₂ ++ '\x7d' :: rest)) =
        some (members, rest) := by
  induction h with
  | nil => exact absurd rfl hne
  | @cons text member texts members htext hrest ih =>
    intro fuel hfuel
    obtain ⟨n, rfl⟩ : ∃ n, fuel = n + 1 := ⟨fuel - 1, by omega⟩
    obtain ⟨key, t⟩ := member
    obtain ⟨name, b, ds, hname, hb, rfl, hds⟩ := htext
    obtain rfl : key = some name := hname
    cases hrest with
    | nil =>
      rw [List.intercalate_singleton] at hfuel ⊢
      simp only [List.length_append, List.length_cons] at hfuel
      have hclose : skipSpace (b₂ ++ '\x7d' :: rest) = '\x7d' :: rest := by
        rw [skipSpace_blank hb₂, skipSpace_of_not (by decide)]
      rw [members_cons hb hds (by omega) (ends_blank hb₂ (ends_cons (by decide))), hclose]
      rfl
    | @cons text' member' texts members htext' hrest =>
      rw [List.intercalate_cons_cons] at hfuel ⊢
      simp only [List.length_append, List.length_cons] at hfuel
      have hnext := ih (List.cons_ne_nil _ _) n (by omega)
      rw [List.append_assoc, List.append_assoc, List.cons_append,
        members_cons hb hds (by omega) (ends_cons (.inl rfl)), skipSpace_of_not (by decide)]
      show (Tree.members n (b₁ ++ _)).map _ = _
      rw [members_blank hb₁, hnext]
      rfl

/-- Members between braces. -/
theorem reads_object (hb₀ : Blank b₀) (hb₁ : Blank b₁) (hb₂ : Blank b₂)
    (h : List.Forall₂ ReadsMember texts members) (hne : texts ≠ []) :
    Reads ('\x7b' :: (b₀ ++ (',' :: b₁).intercalate texts ++ (b₂ ++ ['\x7d'])))
      (.object members) := by
  refine .intro nofun fun n rest hfuel _ => ?_
  simp only [List.length_append, List.length_cons] at hfuel
  have hmembers := members_intercalate hb₁ hb₂ h hne rest n (by omega)
  rw [List.cons_append]
  refine value_object ?_
  simp only [List.append_assoc, List.singleton_append, members_blank hb₀, hmembers]

/-- A text with nothing behind it is a document. -/
theorem Reads.parse {text : String} (h : Reads text.toList t) : parse text = some t := by
  have hvalue := h (2 * text.toList.length + 2) [] (by omega) nofun
  rw [List.append_nil] at hvalue
  simp only [Tree.parse, hvalue]
  rfl

theorem ofValues_eq (vs : List Value) : ofValues vs = vs.map ofValue := by
  induction vs with
  | nil => rfl
  | cons v vs ih => rw [ofValues, ih, List.map_cons]

theorem ofFields_eq (fs : List (String × Value)) :
    ofFields fs = fs.map fun f => (some f.1, ofValue f.2) := by
  induction fs with
  | nil => rfl
  | cons f fs ih => rw [ofFields, ih, List.map_cons]

end Tree

namespace Value

open Json.Tree

variable {v : Value} {xs : List Value} {fs : List (String × Value)} {level : Nat}

/-- All numbers of a value have legible texts. -/
inductive Legible : Value → Prop
  | null : Legible .null
  | bool {b : Bool} : Legible (.bool b)
  | number {n : Number} : n.Legible → Legible (.number n)
  | string {s : String} : Legible (.string s)
  | array {xs : List Value} : (∀ x ∈ xs, Legible x) → Legible (.array xs)
  | object {fs : List (String × Value)} : (∀ f ∈ fs, Legible f.2) → Legible (.object fs)

theorem Legible.ofOption {α : Type} {f : α → Value} {o : Option α} (h : ∀ a ∈ o, (f a).Legible) :
    (Value.ofOption f o).Legible := by
  cases o with
  | none => exact .null
  | some a => exact h a rfl

theorem compactItems_eq (xs : List Value) : compactItems xs = xs.map compact := by
  induction xs with
  | nil => rfl
  | cons x xs ih => rw [compactItems, ih, List.map_cons]

theorem compactFields_eq (fs : List (String × Value)) :
    compactFields fs = fs.map fun f => quote f.1 ++ ":" ++ f.2.compact := by
  induction fs with
  | nil => rfl
  | cons f fs ih => rw [compactFields, ih, List.map_cons]

theorem prettyItems_eq (level : Nat) (xs : List Value) :
    prettyItems level xs = xs.map (prettyAt level) := by
  induction xs with
  | nil => rfl
  | cons x xs ih => rw [prettyItems, ih, List.map_cons]

theorem prettyFields_eq (level : Nat) (fs : List (String × Value)) :
    prettyFields level fs = fs.map fun f => quote f.1 ++ ": " ++ f.2.prettyAt level := by
  induction fs with
  | nil => rfl
  | cons f fs ih => rw [prettyFields, ih, List.map_cons]

theorem blank_newline (level : Nat) : Blank (newline level).toList := by
  intro c hc
  rw [newline, String.toList_ofList] at hc
  obtain rfl | hc := List.mem_cons.mp hc
  · rfl
  · rw [(List.mem_replicate.mp hc).2]
    rfl

theorem reads_items {print : Value → String} (h : ∀ x ∈ xs, Reads (print x).toList (ofValue x)) :
    List.Forall₂ Reads ((xs.map print).map String.toList) (xs.map ofValue) := by
  rw [List.map_map, List.forall₂_map_left_iff, List.forall₂_map_right_iff, List.forall₂_same]
  exact h

theorem reads_fields {print : Value → String} {colon : String} {b : List Char} (hb : Blank b)
    (hcolon : colon.toList = ':' :: b) (h : ∀ f ∈ fs, Reads (print f.2).toList (ofValue f.2)) :
    List.Forall₂ ReadsMember ((fs.map fun f => quote f.1 ++ colon ++ print f.2).map String.toList)
      (fs.map fun f => (some f.1, ofValue f.2)) := by
  rw [List.map_map, List.forall₂_map_left_iff, List.forall₂_map_right_iff, List.forall₂_same]
  intro f hf
  refine ⟨f.1, b, (print f.2).toList, rfl, hb, ?_, h f hf⟩
  rw [Function.comp_apply, String.toList_append, String.toList_append, hcolon,
    List.append_assoc, List.cons_append]

theorem toList_compact_array : (compact (.array xs)).toList =
    '[' :: ([] ++ [','].intercalate ((xs.map compact).map String.toList) ++ ([] ++ [']'])) := by
  simp [compact, compactItems_eq, String.toList_intercalate]

theorem toList_compact_object :
    (compact (.object fs)).toList = '\x7b' :: ([] ++
    [','].intercalate ((fs.map fun f => quote f.1 ++ ":" ++ f.2.compact).map String.toList) ++
      ([] ++ ['\x7d'])) := by
  rw [compact, compactFields_eq]
  simp [String.toList_intercalate]

theorem reads_compact (h : v.Legible) : Reads v.compact.toList (ofValue v) := by
  induction h with
  | null => exact reads_null
  | @bool b => cases b; exacts [reads_false, reads_true]
  | number h => exact reads_number h
  | string => exact reads_quote _
  | @array xs _ ih =>
    cases xs with
    | nil => exact reads_array_nil
    | cons x xs =>
      have hread := reads_array blank_nil blank_nil blank_nil (reads_items ih) (by simp)
      rw [toList_compact_array, ofValue, ofValues_eq]
      exact hread
  | @object fs _ ih =>
    cases fs with
    | nil => exact reads_object_nil
    | cons f fs =>
      have hfields := reads_fields blank_nil (show ":".toList = [':'] from rfl) ih
      have hread := reads_object blank_nil blank_nil blank_nil hfields (by simp)
      rw [toList_compact_object, ofValue, ofFields_eq]
      exact hread

theorem toList_block {opening closing : String} {items : List String} (h : items ≠ []) :
    (block level opening closing items).toList =
      opening.toList ++ ((newline (level + 1)).toList ++
        (',' :: (newline (level + 1)).toList).intercalate (items.map String.toList) ++
          ((newline level).toList ++ closing.toList)) := by
  cases items with
  | nil => exact absurd rfl h
  | cons item items => simp [block, String.toList_intercalate]

theorem reads_prettyAt (h : v.Legible) (level : Nat) :
    Reads (v.prettyAt level).toList (ofValue v) := by
  have hnewline := blank_newline
  induction h generalizing level with
  | null =>
    rw [prettyAt]
    exact reads_null
  | @bool b =>
    rw [prettyAt]
    cases b
    exacts [reads_false, reads_true]
  | number h =>
    rw [prettyAt]
    exact reads_number h
  | string =>
    rw [prettyAt]
    exact reads_quote _
  | @array xs _ ih =>
    rw [prettyAt, prettyItems_eq, ofValue, ofValues_eq]
    cases xs with
    | nil =>
      rw [List.map_nil, block, String.toList_append]
      exact reads_array_nil
    | cons x xs =>
      have hitems := reads_items fun x hx => ih x hx (level + 1)
      rw [toList_block (by simp)]
      exact reads_array (hnewline (level + 1)) (hnewline (level + 1))
        (hnewline level) hitems (by simp)
  | @object fs _ ih =>
    rw [prettyAt, prettyFields_eq, ofValue, ofFields_eq]
    cases fs with
    | nil =>
      rw [List.map_nil, block, String.toList_append]
      exact reads_object_nil
    | cons f fs =>
      have hfields := reads_fields blank_space (show ": ".toList = [':', ' '] from rfl) fun f hf =>
        ih f hf (level + 1)
      rw [toList_block (by simp)]
      exact reads_object (hnewline (level + 1)) (hnewline (level + 1))
        (hnewline level) hfields (by simp)

/-- A compact text is read as the tree of its value. -/
theorem parse_compact (h : v.Legible) : Tree.parse v.compact = some (ofValue v) :=
  (reads_compact h).parse

/-- So is a pretty one. -/
theorem parse_pretty (h : v.Legible) : Tree.parse v.pretty = some (ofValue v) :=
  (reads_prettyAt h 0).parse

end Value
end Statechart.Json
