import Mathlib.Data.Nat.Init
import Mathlib.Tactic.IntervalCases
import UiRunner.Json.Reader
import UiRunner.Json.Writer
import UiRunner.Proofs.Json.Fields

/-!
# Reading what was written

A value that holds no floats, and whole numbers within 64 bits only, is read back from the text in
which it was written, as long as its fields are in order and its brackets are not nested too deep.
-/
namespace UiRunner.Json

open Decimal

/-- What can follow a value in a text. -/
def Closes (rest : List Char) : Prop :=
  rest = [] ∨ ∃ c tail, rest = c :: tail ∧ (c = ',' ∨ c = '\n')

/-! ## Whole numbers -/

theorem isDigit_of_mem_toDigits {n : Nat} {c : Char} (h : c ∈ Nat.toDigits 10 n) :
    isDigit c = true := by
  have digit : c.isDigit = true := Nat.isDigit_of_mem_toDigits (by decide) (by decide) h
  simpa [isDigit, Char.isDigit, Char.le_def] using digit

theorem head?_toDigits {n : Nat} (pos : n ≠ 0) : (Nat.toDigits 10 n).head? ≠ some '0' := by
  induction n using Nat.strong_induction_on with
  | _ n ih =>
    by_cases one : n < 10
    · rw [Nat.toDigits_of_lt_base one]
      interval_cases n <;> simp_all
    · rw [Nat.toDigits_of_base_le (by decide) (by omega), List.head?_append_of_ne_nil _
        Nat.toDigits_ne_nil]
      exact ih (n / 10) (by omega) (by omega)

/-- The digits of a number are followed by nothing that could belong to it. -/
theorem leadingDigits_toDigits (n : Nat) (small : n ≤ maxWord) (tail : List Char) :
    leadingDigits 0 (Nat.toDigits 10 n ++ tail) = leadingDigits n tail := by
  induction n using Nat.strong_induction_on generalizing tail with
  | _ n ih =>
    by_cases one : n < 10
    · rw [Nat.toDigits_of_lt_base one, List.singleton_append, leadingDigits]
      have value : (Nat.digitChar n).toNat - 48 = n := by
        rw [Nat.toNat_digitChar_of_lt_ten one]
        omega
      simp [value, Nat.not_lt.2 small]
    · have last : n % 10 < 10 := Nat.mod_lt _ (by decide)
      rw [Nat.toDigits_of_base_le (by decide) (by omega), List.append_assoc, ih (n / 10) (by omega)
        (by omega), List.singleton_append, leadingDigits]
      have value : n / 10 * 10 + ((Nat.digitChar (n % 10)).toNat - 48) = n := by
        rw [Nat.toNat_digitChar_of_lt_ten last]
        omega
      simp [value, Nat.not_lt.2 small]

theorem takeWhile_isDigit_toDigits (n : Nat) {rest : List Char} (closes : Closes rest) :
    (Nat.toDigits 10 n ++ rest).takeWhile isDigit = Nat.toDigits 10 n ∧
      (Nat.toDigits 10 n ++ rest).dropWhile isDigit = rest := by
  have digits : ∀ c ∈ Nat.toDigits 10 n, isDigit c = true := fun c => isDigit_of_mem_toDigits
  have none : rest.takeWhile isDigit = [] ∧ rest.dropWhile isDigit = rest := by
    obtain rfl | ⟨c, tail, rfl, rfl | rfl⟩ := closes
    · exact ⟨rfl, rfl⟩
    · exact ⟨rfl, rfl⟩
    · exact ⟨rfl, rfl⟩
  rw [List.takeWhile_append_of_pos digits, List.dropWhile_append_of_pos digits, none.1, none.2]
  exact ⟨List.append_nil _, rfl⟩

theorem numberOf_toDigits (negative : Bool) {n : Nat} (small : n ≤ maxWord) :
    numberOf negative (Nat.toDigits 10 n) [] none =
      if !negative then some (.int n)
      else if n = 0 ∨ n > Nat.pow 2 63 then some (.float (negate (.ofNat n)))
      else some (.int (-n)) := by
  have digits := leadingDigits_toDigits n small []
  rw [List.append_nil] at digits
  simp [numberOf, digits, leadingDigits]

theorem unsignedNumeral_toDigits (negative : Bool) {n : Nat} (small : n ≤ maxWord)
    {rest : List Char} (closes : Closes rest) :
    unsignedNumeral negative (Nat.toDigits 10 n ++ rest) =
      some (.num (numberOf negative (Nat.toDigits 10 n) [] none), rest) := by
  obtain ⟨whole, after⟩ := takeWhile_isDigit_toDigits n closes
  have leads : ((Nat.toDigits 10 n).length > 1 && (Nat.toDigits 10 n).head? == some '0') =
      false := by
    by_cases zero : n = 0
    · subst zero
      rfl
    · simp [head?_toDigits zero]
  rw [unsignedNumeral, whole, after]
  simp only [leads, Bool.or_false, List.isEmpty_iff, Nat.toDigits_ne_nil, ite_false]
  obtain rfl | ⟨c, tail, rfl, rfl | rfl⟩ := closes <;> rfl

/-! ## Texts -/

/-- The characters of a text between quotes. -/
def escaped (s : List Char) : List Char := s.flatMap fun c => (escapeChar c).toList

theorem toList_quote (s : String) :
    (quote s).toList = '\x22' :: (escaped s.toList ++ ['\x22']) := by
  simp [quote, escaped, String.toList_join, List.flatMap, Function.comp_def]

theorem hex4?_hexPair {n : Nat} (small : n < 32) (rest : List Char) :
    hex4? ('0' :: '0' :: Nat.digitChar (n / 16) :: Nat.digitChar (n % 16) :: rest) =
      some (n, rest) := by
  interval_cases n <;> rfl

/-- A character is written as it is, behind a backslash, or by its number. -/
theorem escapeChar_cases (c : Char) :
    (escapeChar c).toList = [c] ∧ c ≠ '\x22' ∧ c ≠ '\\' ∧ ¬ c.toNat < 32 ∨
      (∃ e, (escapeChar c).toList = ['\\', e] ∧ e ≠ 'u' ∧ simpleEscape? e = some c) ∨
      c.toNat < 32 ∧ (escapeChar c).toList =
        ['\\', 'u', '0', '0', Nat.digitChar (c.toNat / 16), Nat.digitChar (c.toNat % 16)] := by
  by_cases quote : c = '\x22'
  · subst quote
    exact .inr (.inl ⟨'\x22', rfl, by decide, rfl⟩)
  by_cases backslash : c = '\\'
  · subst backslash
    exact .inr (.inl ⟨'\\', rfl, by decide, rfl⟩)
  by_cases newline : c = '\n'
  · subst newline
    exact .inr (.inl ⟨'n', rfl, by decide, rfl⟩)
  by_cases return_ : c = '\r'
  · subst return_
    exact .inr (.inl ⟨'r', rfl, by decide, rfl⟩)
  by_cases tab : c = '\t'
  · subst tab
    exact .inr (.inl ⟨'t', rfl, by decide, rfl⟩)
  by_cases backspace : c = '\x08'
  · subst backspace
    exact .inr (.inl ⟨'b', rfl, by decide, rfl⟩)
  by_cases feed : c = '\x0c'
  · subst feed
    exact .inr (.inl ⟨'f', rfl, by decide, rfl⟩)
  have others : escapeChar c =
      if c.toNat < 32 then "\\u00" ++ hexPair c.toNat else c.toString := by
    simp [escapeChar, quote, backslash, newline, return_, tab, backspace, feed]
  by_cases control : c.toNat < 32
  · exact .inr (.inr ⟨control, by simp [others, control, hexPair]⟩)
  · exact .inl ⟨by simp [others, control], quote, backslash, control⟩

theorem stringBody_escapeChar (fuel : Nat) (acc : List Char) (c : Char) (tail : List Char) :
    stringBody (fuel + 1) (some acc) ((escapeChar c).toList ++ tail) =
      stringBody fuel (some (c :: acc)) tail := by
  obtain ⟨written, quote, backslash, visible⟩ | ⟨e, written, other, read⟩ | ⟨small, written⟩ :=
    escapeChar_cases c
  · simp [written, stringBody, quote, backslash, visible, addChar]
  · simp [written, stringBody, read, addChar]
  · have char : unicodeEscape ('0' :: '0' :: Nat.digitChar (c.toNat / 16) ::
        Nat.digitChar (c.toNat % 16) :: tail) = some (some c, tail) := by
      have low : ¬ 0xDC00 ≤ c.toNat := by omega
      have high : ¬ 0xD800 ≤ c.toNat := by omega
      simp [unicodeEscape, hex4?_hexPair small, low, high]
    simp [written, stringBody, char, addChar]

/-- A text between quotes is read up to its closing quote. -/
theorem stringBody_escaped {fuel : Nat} {s : List Char} (enough : s.length < fuel)
    (acc rest : List Char) : stringBody fuel (some acc) (escaped s ++ '\x22' :: rest) =
      some (some (.ofList (acc.reverse ++ s)), rest) := by
  induction s generalizing fuel acc with
  | nil =>
    obtain ⟨fuel, rfl⟩ := Nat.exists_eq_succ_of_ne_zero (Nat.ne_of_gt enough)
    simp [escaped, stringBody]
  | cons c s ih =>
    obtain ⟨fuel, rfl⟩ := Nat.exists_eq_succ_of_ne_zero (Nat.ne_zero_of_lt enough)
    rw [escaped, List.flatMap_cons, List.append_assoc, stringBody_escapeChar]
    simpa [escaped] using ih (Nat.lt_of_succ_lt_succ enough) (c :: acc)

theorem length_le_escaped (s : List Char) : s.length ≤ (escaped s).length := by
  induction s with
  | nil => exact Nat.le_refl _
  | cons c s ih =>
    have one : 1 ≤ (escapeChar c).toList.length := by
      obtain ⟨written, -⟩ | ⟨e, written, -⟩ | ⟨-, written⟩ := escapeChar_cases c <;>
        simp [written]
    simp only [escaped, List.flatMap_cons, List.length_append, List.length_cons] at ih ⊢
    omega

/-- What follows an opening quote is read as the text that was written there. -/
theorem stringBody_quoted (s : String) (rest : List Char) {fuel : Nat}
    (enough : (escaped s.toList).length < fuel) :
    stringBody fuel (some []) (escaped s.toList ++ '\x22' :: rest) = some (some s, rest) := by
  rw [stringBody_escaped (Nat.lt_of_le_of_lt (length_le_escaped _) enough)]
  simp

/-! ## Values -/

/-- What is written so that it is read back, where `room` more brackets may not be opened. -/
inductive Readable : Nat → Json → Prop where
  | null (room : Nat) : Readable room .null
  | bool (room : Nat) (b : Bool) : Readable room (.bool b)
  | int (room : Nat) {i : Int} : -Int.pow 2 63 ≤ i → i ≤ maxWord → Readable room (.num (.int i))
  | str (room : Nat) (s : String) : Readable room (.str s)
  | arr {room : Nat} {items : List Json} :
      1 < room → (∀ v ∈ items, Readable (room - 1) v) → Readable room (.arr items)
  | obj {room : Nat} {fields : Fields} : 1 < room → fields.Sorted →
      (∀ f ∈ fields, Readable (room - 1) f.2) → Readable room (.obj fields)

/-- The text begins with what begins a value. -/
def Opens (text : List Char) : Prop := ∃ c tail, text = c :: tail ∧ isSpace c = false ∧ c ≠ ']'

/-- The value is what a reader makes of the text, whatever comes after it. -/
structure Spells (room : Nat) (text : List Char) (v : Json) : Prop where
  opens : Opens text
  reads : ∃ t : Tree, t.valueAt? room = some v ∧ ∀ fuel rest, Closes rest → text.length ≤ fuel →
    treeAt fuel (text ++ rest) = some (t, rest)

/-- A value without brackets is read with any fuel. -/
theorem Spells.leaf {room : Nat} {text : List Char} {v : Json} {t : Tree} (opens : Opens text)
    (value : t.valueAt? room = some v)
    (reads : ∀ fuel rest, Closes rest → treeAt (fuel + 1) (text ++ rest) = some (t, rest)) :
    Spells room text v := by
  refine ⟨opens, t, value, fun fuel rest closes enough => ?_⟩
  obtain ⟨c, tail, rfl, -⟩ := opens
  obtain ⟨fuel, rfl⟩ := Nat.exists_eq_succ_of_ne_zero (Nat.ne_zero_of_lt enough)
  exact reads fuel rest closes

theorem spells_null (room : Nat) : Spells room "null".toList .null :=
  .leaf ⟨'n', _, rfl, rfl, by decide⟩ rfl fun _ _ _ => rfl

theorem spells_bool (room : Nat) (b : Bool) :
    Spells room (if b then "true" else "false").toList (.bool b) := by
  cases b with
  | true => exact .leaf ⟨'t', _, rfl, rfl, by decide⟩ rfl fun _ _ _ => rfl
  | false => exact .leaf ⟨'f', _, rfl, rfl, by decide⟩ rfl fun _ _ _ => rfl

theorem spells_str (room : Nat) (s : String) : Spells room (quote s).toList (.str s) := by
  rw [toList_quote]
  refine .leaf ⟨'\x22', _, rfl, rfl, by decide⟩ (t := .str (some s)) rfl fun fuel rest _ => ?_
  have body : stringBody ((escaped s.toList ++ '\x22' :: rest).length + 1) (some [])
      (escaped s.toList ++ '\x22' :: rest) = some (some s, rest) :=
    stringBody_quoted s rest (by simp only [List.length_append]; omega)
  rw [List.cons_append, List.append_assoc, List.singleton_append, treeAt, body]
  rfl

/-- A digit begins no other value than a number. -/
theorem treeAt_digit (fuel : Nat) {c : Char} (digit : isDigit c = true) (cs : List Char) :
    treeAt (fuel + 1) (c :: cs) = unsignedNumeral false (c :: cs) ∧
      isSpace c = false ∧ c ≠ ']' := by
  have different : ∀ d, isDigit d = false → c ≠ d := by
    rintro d other rfl
    cases digit.symm.trans other
  have n := different 'n' rfl
  have t := different 't' rfl
  have f := different 'f' rfl
  have minus := different '-' rfl
  refine ⟨by simp [treeAt, n, t, f, minus, digit], ?_, different ']' rfl⟩
  simp [isSpace, different ' ' rfl, different '\n' rfl, different '\t' rfl, different '\r' rfl]

theorem exists_digit (n : Nat) :
    ∃ c cs, Nat.toDigits 10 n = c :: cs ∧ isDigit c = true := by
  obtain ⟨c, cs, digits⟩ := List.exists_cons_of_ne_nil (Nat.toDigits_ne_nil (b := 10) (n := n))
  exact ⟨c, cs, digits, isDigit_of_mem_toDigits (n := n) (digits ▸ List.mem_cons_self)⟩

theorem spells_int (room : Nat) {i : Int} (low : -Int.pow 2 63 ≤ i) (high : i ≤ maxWord) :
    Spells room (intText i).toList (.num (.int i)) := by
  have wide : Nat.pow 2 63 ≤ maxWord := by decide
  have bound : i.natAbs ≤ maxWord := by
    have : Int.pow 2 63 = (Nat.pow 2 63 : Nat) := rfl
    omega
  obtain ⟨c, cs, digits, digit⟩ := exists_digit i.natAbs
  by_cases negative : i < 0
  · have text : (intText i).toList = '-' :: Nat.toDigits 10 i.natAbs := by
      simp [intText, natText, negative]
    have number : numberOf true (Nat.toDigits 10 i.natAbs) [] none = some (.int i) := by
      have fits : ¬ (i.natAbs = 0 ∨ i.natAbs > Nat.pow 2 63) := by
        have : Int.pow 2 63 = (Nat.pow 2 63 : Nat) := rfl
        omega
      rw [numberOf_toDigits true bound, if_neg (by simp), if_neg fits]
      exact congrArg (some ∘ Number.int) (by omega)
    rw [text]
    refine .leaf ⟨'-', _, rfl, rfl, by decide⟩ (t := .num (some (.int i))) rfl
      fun fuel rest closes => ?_
    have read := unsignedNumeral_toDigits true bound closes
    rw [number] at read
    simpa [treeAt] using read
  · have text : (intText i).toList = Nat.toDigits 10 i.natAbs := by
      simp [intText, natText, negative]
    have number : numberOf false (Nat.toDigits 10 i.natAbs) [] none = some (.int i) := by
      rw [numberOf_toDigits false bound, Bool.not_false, if_pos rfl]
      exact congrArg (some ∘ Number.int) (by omega)
    rw [text]
    refine .leaf ⟨c, cs, digits, (treeAt_digit 0 digit cs).2⟩ (t := .num (some (.int i))) rfl
      fun fuel rest closes => ?_
    have read := unsignedNumeral_toDigits false bound closes
    rw [number, digits, List.cons_append] at read
    rw [digits, List.cons_append, (treeAt_digit fuel digit _).1, read]

/-! ## Blocks -/

/-- What follows an entry of a block: further entries, and the closing bracket. -/
def following (depth : Nat) (closing : String) : List String → List Char
  | [] => '\n' :: ((indent depth).toList ++ closing.toList)
  | e :: es =>
    ',' :: '\n' :: ((indent (depth + 1)).toList ++ (e.toList ++ following depth closing es))

theorem toList_block (opening closing : String) (depth : Nat) (e : String) (es : List String) :
    (block opening closing depth (e :: es)).toList = opening.toList ++
      '\n' :: ((indent (depth + 1)).toList ++ (e.toList ++ following depth closing es)) := by
  suffices ∀ e : String, (",\n".intercalate ((e :: es).map (indent (depth + 1) ++ ·))).toList ++
      '\n' :: ((indent depth).toList ++ closing.toList) =
        (indent (depth + 1)).toList ++ (e.toList ++ following depth closing es) by
    simpa [block] using this e
  intro e
  induction es generalizing e with
  | nil => simp [following]
  | cons f es ih =>
    have rest := ih f
    simp only [List.map_cons, String.intercalate_cons_cons, String.toList_append,
      List.append_assoc, following] at rest ⊢
    rw [rest]
    rfl

theorem skipSpace_indent (depth : Nat) {text : List Char} (opens : Opens text) :
    skipSpace ('\n' :: ((indent depth).toList ++ text)) = text := by
  obtain ⟨c, tail, rfl, visible, -⟩ := opens
  have blanks : ∀ x ∈ (indent depth).toList, isSpace x = true := by
    simp [indent, isSpace]
  rw [skipSpace, List.dropWhile_cons_of_pos rfl, List.dropWhile_append_of_pos blanks]
  simp [visible]

theorem closes_following (depth : Nat) (closing : String) (es : List String) (rest : List Char) :
    Closes (following depth closing es ++ rest) := by
  cases es with
  | nil => exact .inr ⟨_, _, rfl, .inr rfl⟩
  | cons e es => exact .inr ⟨_, _, rfl, .inl rfl⟩

/-- What is left of a block behind an entry when the space before it is skipped. -/
theorem skipSpace_following_nil (depth : Nat) {c : Char} (visible : isSpace c = false)
    (rest : List Char) :
    skipSpace (following depth (String.ofList [c]) [] ++ rest) = c :: rest := by
  have blanks : ∀ x ∈ (indent depth).toList, isSpace x = true := by
    simp [indent, isSpace]
  simp only [following, String.toList_ofList, List.cons_append, List.append_assoc, List.nil_append]
  rw [skipSpace, List.dropWhile_cons_of_pos rfl, List.dropWhile_append_of_pos blanks]
  simp [visible]

theorem Opens.append {text : List Char} (opens : Opens text) (rest : List Char) :
    Opens (text ++ rest) := by
  obtain ⟨c, tail, rfl, visible, item⟩ := opens
  exact ⟨c, _, rfl, visible, item⟩

theorem length_following (depth : Nat) (closing : String) (es : List String) :
    2 ≤ (following depth closing es).length + 1 := by
  cases es <;> simp [following]

/-- The space before a further entry is skipped. -/
theorem skipSpace_following_cons (depth : Nat) (closing : String) {e : String} (es : List String)
    (opens : Opens e.toList) (rest : List Char) :
    skipSpace (following depth closing (e :: es) ++ rest) =
        following depth closing (e :: es) ++ rest ∧
      skipSpace ((following depth closing (e :: es) ++ rest).tail) =
        e.toList ++ (following depth closing es ++ rest) := by
  refine ⟨rfl, ?_⟩
  have skipped := skipSpace_indent (depth + 1) (opens.append (following depth closing es ++ rest))
  simpa [following] using skipped

/-- Items of a list are read one after the other. -/
theorem itemsAt_block {room : Nat} (depth : Nat) (v : Json) (vs : List Json)
    (spelled : ∀ u ∈ v :: vs, Spells room (u.prettyAt (depth + 1)).toList u) :
    ∃ ts, Tree.itemsAt? room ts = some (v :: vs) ∧ ∀ fuel rest,
      (v.prettyAt (depth + 1)).toList.length +
        (following depth "]" (prettyItems (depth + 1) vs)).length ≤ fuel →
      itemsAt fuel ((v.prettyAt (depth + 1)).toList ++
        (following depth "]" (prettyItems (depth + 1) vs) ++ rest)) = some (ts, rest) := by
  induction vs generalizing v with
  | nil =>
    obtain ⟨-, t, value, reads⟩ := spelled v List.mem_cons_self
    refine ⟨[t], by simp [Tree.itemsAt?, value], fun fuel rest enough => ?_⟩
    have some_ := length_following depth "]" (prettyItems (depth + 1) [])
    obtain ⟨fuel, rfl⟩ : ∃ k, fuel = k + 1 := ⟨fuel - 1, by omega⟩
    have item := reads fuel _ (closes_following depth "]" (prettyItems (depth + 1) []) rest)
      (by omega)
    have closed := skipSpace_following_nil depth (c := ']') rfl rest
    rw [itemsAt, item]
    simp only [prettyItems]
    rw [closed]
    rfl
  | cons u us ih =>
    obtain ⟨first, others⟩ := List.forall_mem_cons.1 spelled
    obtain ⟨-, t, value, reads⟩ := first
    obtain ⟨ts, values, readsAll⟩ := ih u others
    refine ⟨t :: ts, by simp [Tree.itemsAt?, value, values], fun fuel rest enough => ?_⟩
    rw [prettyItems, following] at enough
    simp only [List.length_cons, List.length_append] at enough
    obtain ⟨fuel, rfl⟩ : ∃ k, fuel = k + 1 := ⟨fuel - 1, by omega⟩
    have item := reads fuel _ (closes_following depth "]" (prettyItems (depth + 1) (u :: us)) rest)
      (by omega)
    obtain ⟨comma, next⟩ := skipSpace_following_cons depth "]" (prettyItems (depth + 1) us)
      (others u List.mem_cons_self).opens rest
    rw [itemsAt, item]
    simp only [prettyItems]
    rw [comma]
    simp only [following, List.cons_append, List.tail_cons] at next ⊢
    rw [next, readsAll fuel rest (by omega)]
    rfl

theorem toList_field (name text : String) : (quote name ++ ": " ++ text).toList =
    '\x22' :: (escaped name.toList ++ '\x22' :: ':' :: ' ' :: text.toList) := by
  simp [toList_quote]

theorem opens_field (name text : String) : Opens (quote name ++ ": " ++ text).toList :=
  ⟨'\x22', _, toList_field name text, rfl, by decide⟩

/-- A field is read up to the value in it, and then that value. -/
theorem fieldsAt_field {fuel : Nat} {name text : String} {t : Tree} {rest : List Char}
    (opens : Opens text.toList) (read : treeAt fuel (text.toList ++ rest) = some (t, rest)) :
    fieldsAt (fuel + 1) ((quote name ++ ": " ++ text).toList ++ rest) =
      match skipSpace rest with
      | '\x7d' :: rest => some ([(some name, t)], rest)
      | ',' :: rest => (fieldsAt fuel (skipSpace rest)).map fun (fs, rest) =>
        ((some name, t) :: fs, rest)
      | _ => none := by
  have named : stringBody ((escaped name.toList ++ '\x22' :: ':' :: ' ' ::
      (text.toList ++ rest)).length + 1) (some []) (escaped name.toList ++ '\x22' :: ':' :: ' ' ::
        (text.toList ++ rest)) = some (some name, ':' :: ' ' :: (text.toList ++ rest)) :=
    stringBody_quoted name _ (by simp only [List.length_append]; omega)
  have colon : skipSpace (':' :: ' ' :: (text.toList ++ rest)) =
      ':' :: ' ' :: (text.toList ++ rest) := rfl
  have space : skipSpace (' ' :: (text.toList ++ rest)) = text.toList ++ rest := by
    obtain ⟨c, tail, rest_, visible, -⟩ := opens.append rest
    rw [rest_, skipSpace, List.dropWhile_cons_of_pos rfl]
    simp [visible]
  rw [toList_field]
  simp only [List.cons_append, List.append_assoc]
  rw [fieldsAt]
  simp only [named, colon, space]
  exact read ▸ rfl

/-- Fields of an object are read one after the other. -/
theorem fieldsAt_block {room : Nat} (depth : Nat) (f : String × Json) (fs : Fields)
    (spelled : ∀ g ∈ f :: fs, Spells room (g.2.prettyAt (depth + 1)).toList g.2) :
    ∃ ts, Tree.fieldsAt? room ts = some (f :: fs) ∧ ∀ fuel rest,
      (quote f.1 ++ ": " ++ f.2.prettyAt (depth + 1)).toList.length +
        (following depth "\x7d" (prettyFields (depth + 1) fs)).length ≤ fuel →
      fieldsAt fuel ((quote f.1 ++ ": " ++ f.2.prettyAt (depth + 1)).toList ++
        (following depth "\x7d" (prettyFields (depth + 1) fs) ++ rest)) = some (ts, rest) := by
  induction fs generalizing f with
  | nil =>
    obtain ⟨opens, t, value, reads⟩ := spelled f List.mem_cons_self
    refine ⟨[(some f.1, t)], by simp [Tree.fieldsAt?, value], fun fuel rest enough => ?_⟩
    simp only [toList_field, List.length_cons, List.length_append] at enough
    obtain ⟨fuel, rfl⟩ : ∃ k, fuel = k + 1 := ⟨fuel - 1, by omega⟩
    have value := reads fuel _ (closes_following depth "\x7d" (prettyFields (depth + 1) []) rest)
      (by omega)
    have closed := skipSpace_following_nil depth (c := '\x7d') rfl rest
    rw [fieldsAt_field opens value]
    simp only [prettyFields]
    rw [closed]
    rfl
  | cons g gs ih =>
    obtain ⟨first, others⟩ := List.forall_mem_cons.1 spelled
    obtain ⟨opens, t, value, reads⟩ := first
    obtain ⟨ts, values, readsAll⟩ := ih g others
    refine ⟨(some f.1, t) :: ts, by simp [Tree.fieldsAt?, value, values],
      fun fuel rest enough => ?_⟩
    rw [prettyFields, following, toList_field] at enough
    simp only [List.length_cons, List.length_append] at enough
    obtain ⟨fuel, rfl⟩ : ∃ k, fuel = k + 1 := ⟨fuel - 1, by omega⟩
    have value := reads fuel _
      (closes_following depth "\x7d" (prettyFields (depth + 1) (g :: gs)) rest) (by omega)
    obtain ⟨comma, next⟩ := skipSpace_following_cons depth "\x7d"
      (prettyFields (depth + 1) gs) (opens_field g.1 (g.2.prettyAt (depth + 1))) rest
    rw [fieldsAt_field opens value]
    simp only [prettyFields]
    rw [comma]
    simp only [following, List.cons_append, List.tail_cons] at next ⊢
    rw [next, readsAll fuel rest (by omega)]
    rfl

/-! ## Reading a whole text -/

theorem Fields.ofList_of_sorted {fields : Fields} (sorted : fields.Sorted) :
    Fields.ofList fields = fields := by
  refine (sorted_ofList fields).ext sorted fun k => Option.ext fun v => ?_
  rw [get?_ofList_eq_some_iff sorted.nodup, get?_eq_some_iff sorted.nodup]

theorem treeAt_items {fuel : Nat} {cs items rest : List Char} {ts : List Tree}
    (skip : skipSpace cs = items) (opens : Opens items)
    (read : itemsAt fuel items = some (ts, rest)) :
    treeAt (fuel + 1) ('[' :: cs) = some (.arr ts, rest) := by
  obtain ⟨c, tail, rfl, -, bracket⟩ := opens
  simp [treeAt, isDigit, skip, bracket, read]

theorem treeAt_fields {fuel : Nat} {cs tail rest : List Char} {ts : List (Option String × Tree)}
    (skip : skipSpace cs = '\x22' :: tail)
    (read : fieldsAt fuel ('\x22' :: tail) = some (ts, rest)) :
    treeAt (fuel + 1) ('\x7b' :: cs) = some (.obj ts, rest) := by
  simp [treeAt, isDigit, skip, read]

/-- What can be written is read back, at any depth. -/
theorem Readable.spells {room : Nat} {v : Json} (readable : Readable room v) (depth : Nat) :
    Spells room (v.prettyAt depth).toList v := by
  induction readable generalizing depth with
  | null room => exact spells_null room
  | bool room b => exact spells_bool room b
  | int room low high => exact spells_int room low high
  | str room s => exact spells_str room s
  | @arr room items nested _ ih =>
    cases items with
    | nil =>
      have text : ((Json.arr []).prettyAt depth).toList = "[]".toList := rfl
      rw [text]
      refine .leaf (t := .arr []) ⟨'[', _, rfl, rfl, by decide⟩ ?_ fun fuel rest _ => rfl
      simp [Tree.valueAt?, Tree.itemsAt?, Nat.not_le.2 nested]
    | cons v vs =>
      obtain ⟨ts, values, reads⟩ := itemsAt_block depth v vs fun u hu => ih u hu _
      have opens := (ih v List.mem_cons_self (depth + 1)).opens
      rw [prettyAt, prettyItems, toList_block]
      refine ⟨⟨'[', _, rfl, rfl, by decide⟩, .arr ts, ?_, fun fuel rest closes enough => ?_⟩
      · simp [Tree.valueAt?, Nat.not_le.2 nested, values]
      · simp only [List.length_append, List.length_cons] at enough
        obtain ⟨fuel, rfl⟩ : ∃ k, fuel = k + 1 := ⟨fuel - 1, by omega⟩
        have item := skipSpace_indent (depth + 1) (opens.append
          (following depth "]" (prettyItems (depth + 1) vs) ++ rest))
        have read := reads fuel rest (by omega)
        simpa using treeAt_items item (opens.append _) read
  | @obj room fields nested sorted _ ih =>
    cases fields with
    | nil =>
      have text : ((Json.obj []).prettyAt depth).toList = "\x7b\x7d".toList := rfl
      rw [text]
      refine .leaf (t := .obj []) ⟨'\x7b', _, rfl, rfl, by decide⟩ ?_ fun fuel rest _ => rfl
      simp [Tree.valueAt?, Tree.fieldsAt?, Nat.not_le.2 nested, ofFields, Fields.ofList]
    | cons f fs =>
      obtain ⟨ts, values, reads⟩ := fieldsAt_block depth f fs fun g hg => ih g hg _
      rw [prettyAt, prettyFields, toList_block]
      refine ⟨⟨'\x7b', _, rfl, rfl, by decide⟩, .obj ts, ?_, fun fuel rest closes enough => ?_⟩
      · simp [Tree.valueAt?, Nat.not_le.2 nested, values, ofFields, Fields.ofList_of_sorted sorted]
      · simp only [List.length_append, List.length_cons] at enough
        obtain ⟨fuel, rfl⟩ : ∃ k, fuel = k + 1 := ⟨fuel - 1, by omega⟩
        have opens := opens_field f.1 (f.2.prettyAt (depth + 1))
        have field := skipSpace_indent (depth + 1) (opens.append
          (following depth "\x7d" (prettyFields (depth + 1) fs) ++ rest))
        have read := reads fuel rest (by omega)
        rw [toList_field, List.cons_append] at field read
        rw [toList_field]
        simpa using treeAt_fields field read

/-- **Reading gives back what was written.** -/
theorem read?_pretty {v : Json} (readable : Readable maxDepth v) : read? v.pretty = some v := by
  obtain ⟨opens, t, value, reads⟩ := readable.spells 0
  have read := reads (2 * v.pretty.toList.length + 1) [] (.inl rfl) (by rw [pretty]; omega)
  have start : skipSpace v.pretty.toList = v.pretty.toList := by
    obtain ⟨c, tail, text, visible, -⟩ := opens
    rw [pretty, text, skipSpace]
    simp [visible]
  rw [List.append_nil] at read
  rw [read?, Tree.read?, start]
  simp only [pretty] at read ⊢
  rw [read]
  exact value

end UiRunner.Json
