import Mathlib.Data.List.Basic
import UiRunner.Selector.Basic

/-!
# Quoted texts in queries

A text is quoted as one expression that stands for exactly this text. In a query its characters are
found inside of literals only: whatever the text is, the other tokens of the query are those of the
expression and of the frame around it.
-/
namespace UiRunner.XPath

/-! ## Tokens -/

/-- A literal holds what is between its quotes. Names and numbers are words, and any other character
that is not blank stands for itself. -/
inductive Token where
  | literal (text : List Char)
  | word (text : List Char)
  | symbol (c : Char)
deriving DecidableEq, Repr

/-- What a scan is in the middle of. -/
inductive Mode where
  | between
  | word (text : List Char)
  | quoted (q : Char) (text : List Char)
deriving DecidableEq, Repr

namespace Mode

def isBlank (c : Char) : Bool := c ∈ [' ', '\t', '\n', '\r']

def isSymbol (c : Char) : Bool := c ∈ "()[]@,:/|+=!<>*$".toList

/-- What a character begins that belongs to no token before it. -/
def start (c : Char) : List Token × Mode :=
  if c = single ∨ c = double then ([], quoted c [])
  else if isBlank c then ([], between)
  else if isSymbol c then ([.symbol c], between)
  else ([], word [c])

/-- The tokens that a character completes, and what the scan is in the middle of after it. -/
def step : Mode → Char → List Token × Mode
  | between, c => start c
  | word text, c =>
    if c = single ∨ c = double ∨ isBlank c ∨ isSymbol c then
      (.word text :: (start c).1, (start c).2)
    else ([], word (text ++ [c]))
  | quoted q text, c => if c = q then ([.literal text], between) else ([], quoted q (text ++ [c]))

/-- The token that the end of a text completes. A literal has to be closed before. -/
def last? : Mode → Option (List Token)
  | between => some []
  | word text => some [.word text]
  | quoted _ _ => none

end Mode

def scan : Mode → List Char → List Token × Mode
  | m, [] => ([], m)
  | m, c :: cs =>
    let (ts, m) := m.step c
    let (us, m) := scan m cs
    (ts ++ us, m)

/-- The tokens of a text, if all its literals are closed. -/
def tokens? (cs : List Char) : Option (List Token) :=
  let (ts, m) := scan .between cs
  m.last?.map (ts ++ ·)

def Expr.tokens : Expr → List Token
  | .lit text => [.literal text]
  | .concat texts => .word "concat".toList :: .symbol '(' ::
      (texts.map Token.literal).intersperse (.symbol ',') ++ [.symbol ')']

theorem scan_append (m : Mode) (cs ds : List Char) : scan m (cs ++ ds) =
    ((scan m cs).1 ++ (scan (scan m cs).2 ds).1, (scan (scan m cs).2 ds).2) := by
  induction cs generalizing m with
  | nil => rfl
  | cons c cs ih => simp [scan, ih]

theorem scan_append_of {m n k : Mode} {cs ds : List Char} {ts us : List Token}
    (h : scan m cs = (ts, n)) (g : scan n ds = (us, k)) : scan m (cs ++ ds) = (ts ++ us, k) := by
  rw [scan_append, h, g]

/-! ## Literals -/

variable {q : Char} {text rest : List Char}

/-- A character that quotes a text has to be another one than all of the text. -/
def Quotes (q : Char) (text : List Char) : Prop := (q = single ∨ q = double) ∧ q ∉ text

theorem scan_quoted (fresh : q ∉ text) (before : List Char) :
    scan (.quoted q before) (text ++ [q]) = ([.literal (before ++ text)], .between) := by
  induction text generalizing before with
  | nil => simp [scan, Mode.step]
  | cons c cs ih =>
    obtain ⟨other, fresh⟩ := not_or.1 (List.mem_cons.not.1 fresh)
    simp [scan, Mode.step, Ne.symm other, ih fresh]

theorem scan_between (h : Quotes q text) :
    scan .between (between q text) = ([.literal text], .between) := by
  have opens : Mode.step .between q = ([], .quoted q []) := by simp [Mode.step, Mode.start, h.1]
  simp [between, scan, opens, scan_quoted h.2]

theorem parseLiteral?_between (h : Quotes q text) (rest : List Char) :
    Expr.parseLiteral? (between q text ++ rest) = some (text, rest) := by
  have others : ∀ c ∈ text, decide (c ≠ q) = true := fun c held => by
    simpa using fun same : c = q => h.2 (same ▸ held)
  have body : between q text ++ rest = q :: (text ++ q :: rest) := by simp [between]
  rw [body, Expr.parseLiteral?, if_pos h.1, List.dropWhile_append_of_pos others,
    List.takeWhile_append_of_pos others]
  simp

/-! ## Pieces -/

theorem splitAtChar_ne_nil (q : Char) (cs : List Char) : splitAtChar q cs ≠ [] := by
  cases cs with
  | nil => simp [splitAtChar]
  | cons c cs =>
    rw [splitAtChar]
    split
    · simp
    · split <;> simp

theorem splitAtChar_cons_self (q : Char) (cs : List Char) :
    splitAtChar q (q :: cs) = [] :: splitAtChar q cs := by
  simp [splitAtChar]

theorem splitAtChar_cons_of_ne {c : Char} (other : c ≠ q) (cs : List Char) :
    ∃ piece pieces, splitAtChar q cs = piece :: pieces ∧
      splitAtChar q (c :: cs) = (c :: piece) :: pieces := by
  obtain ⟨piece, pieces, split⟩ := List.exists_cons_of_ne_nil (splitAtChar_ne_nil q cs)
  exact ⟨piece, pieces, split, by simp [splitAtChar, other, split]⟩

/-- The pieces with the character between them are the text. -/
theorem intercalate_splitAtChar (q : Char) (cs : List Char) :
    [q].intercalate (splitAtChar q cs) = cs := by
  induction cs with
  | nil => rfl
  | cons c cs ih =>
    by_cases same : c = q
    · subst same
      rw [splitAtChar_cons_self, List.intercalate_cons_of_ne_nil (splitAtChar_ne_nil c cs), ih]
      rfl
    · obtain ⟨piece, pieces, split, longer⟩ := splitAtChar_cons_of_ne same cs
      rw [split] at ih
      rw [longer]
      cases pieces <;> simpa using ih

theorem notMem_of_mem_splitAtChar {cs piece : List Char} (h : piece ∈ splitAtChar q cs) :
    q ∉ piece := by
  induction cs generalizing piece with
  | nil =>
    obtain rfl := List.mem_singleton.1 h
    simp
  | cons c cs ih =>
    by_cases same : c = q
    · subst same
      rw [splitAtChar_cons_self] at h
      obtain rfl | h := List.mem_cons.1 h
      · simp
      · exact ih h
    · obtain ⟨first, pieces, split, longer⟩ := splitAtChar_cons_of_ne same cs
      rw [split] at ih
      rw [longer] at h
      obtain rfl | h := List.mem_cons.1 h
      · simpa [Ne.symm same] using ih List.mem_cons_self
      · exact ih (List.mem_cons_of_mem _ h)

theorem two_le_length_splitAtChar {cs : List Char} (h : q ∈ cs) :
    2 ≤ (splitAtChar q cs).length := by
  induction cs with
  | nil => cases h
  | cons c cs ih =>
    by_cases same : c = q
    · subst same
      have some := List.length_pos_iff.2 (splitAtChar_ne_nil c cs)
      rw [splitAtChar_cons_self, List.length_cons]
      omega
    · obtain ⟨first, pieces, split, longer⟩ := splitAtChar_cons_of_ne same cs
      rw [split] at ih
      rw [longer]
      exact ih (List.mem_of_ne_of_mem (Ne.symm same) h)

/-! ## Arguments -/

/-- The quotes that fit around a text without quotes of both kinds. -/
def quotesOf (text : List Char) : Char := if single ∈ text then double else single

/-- A text with one kind of quotes at most, as a literal. -/
def quoted (text : List Char) : List Char := between (quotesOf text) text

theorem quotes_of_free (free : single ∉ text) : Quotes (quotesOf text) text := by
  simp [Quotes, quotesOf, free]

theorem quoted_of_free (free : single ∉ text) : quoted text = between single text := by
  simp [quoted, quotesOf, free]

/-- A piece is left out when it is empty. -/
theorem exists_argument {piece : List Char} (free : single ∉ piece) : ∃ texts : List (List Char),
    (if piece.isEmpty then [] else [between single piece]) = texts.map quoted ∧
      texts.flatten = piece ∧ ∀ t ∈ texts, Quotes (quotesOf t) t := by
  cases piece with
  | nil => exact ⟨[], rfl, rfl, by simp⟩
  | cons c cs =>
    exact ⟨[c :: cs], by simp [quoted_of_free free], by simp, by simpa using quotes_of_free free⟩

/-- The literals of a concatenation hold the pieces and the quotes between them, in order. -/
theorem exists_arguments (pieces : List (List Char)) (free : ∀ p ∈ pieces, single ∉ p) :
    ∃ texts : List (List Char), arguments pieces = texts.map quoted ∧
      texts.flatten = [single].intercalate pieces ∧ (∀ t ∈ texts, Quotes (quotesOf t) t) ∧
      (2 ≤ pieces.length → [single] ∈ texts) := by
  induction pieces with
  | nil => exact ⟨[], rfl, rfl, by simp, by simp⟩
  | cons piece rest ih =>
    obtain ⟨first, others⟩ := List.forall_mem_cons.1 free
    obtain ⟨texts, shape, flat, fits⟩ := exists_argument first
    cases rest with
    | nil => exact ⟨texts, shape, by simpa using flat, fits, by simp⟩
    | cons next rest =>
      obtain ⟨later, shape', flat', fits', -⟩ := ih others
      refine ⟨texts ++ [single] :: later, ?_, ?_, ?_, by simp⟩
      · rw [arguments, shape, shape', List.map_append, List.map_cons]
        · rfl
        · simp
      · simp [flat, flat', List.intercalate_cons_cons]
      · refine List.forall_mem_append.2 ⟨fits, List.forall_mem_cons.2 ⟨?_, fits'⟩⟩
        simp [Quotes, quotesOf, single, double]

/-- A concatenation of literals up to its closing parenthesis. -/
theorem parseArguments?_intercalate {texts : List (List Char)} (some : texts ≠ [])
    (fits : ∀ t ∈ texts, Quotes (quotesOf t) t) {fuel : Nat} (enough : texts.length ≤ fuel)
    (rest : List Char) :
    Expr.parseArguments? fuel (", ".toList.intercalate (texts.map quoted) ++ ')' :: rest) =
      .some (texts, rest) := by
  induction texts generalizing fuel with
  | nil => exact absurd rfl some
  | cons text texts ih =>
    obtain ⟨first, others⟩ := List.forall_mem_cons.1 fits
    obtain ⟨fuel, rfl⟩ : ∃ n, fuel = n + 1 := ⟨fuel - 1, by simp at enough; omega⟩
    cases texts with
    | nil =>
      rw [List.map_singleton, List.intercalate_singleton, Expr.parseArguments?, quoted,
        parseLiteral?_between first]
      rfl
    | cons next texts =>
      have later := ih (by simp) others (Nat.le_of_succ_le_succ enough)
      have split : ", ".toList.intercalate ((text :: next :: texts).map quoted) ++ ')' :: rest =
          quoted text ++ (',' :: ' ' ::
            (", ".toList.intercalate ((next :: texts).map quoted) ++ ')' :: rest)) := by
        simp [List.intercalate_cons_cons]
      rw [split, Expr.parseArguments?, quoted, parseLiteral?_between first]
      exact congrArg (Option.map fun found => (text :: found.1, found.2)) later

theorem scan_intercalate {texts : List (List Char)} (fits : ∀ t ∈ texts, Quotes (quotesOf t) t) :
    scan .between (", ".toList.intercalate (texts.map quoted)) =
      ((texts.map Token.literal).intersperse (.symbol ','), .between) := by
  induction texts with
  | nil => rfl
  | cons text texts ih =>
    obtain ⟨first, others⟩ := List.forall_mem_cons.1 fits
    have own : scan .between (quoted text) = ([.literal text], .between) := scan_between first
    cases texts with
    | nil => simpa using own
    | cons next texts =>
      have comma : scan .between ", ".toList = ([.symbol ','], .between) := by decide
      have later := scan_append_of (scan_append_of own comma) (ih others)
      simpa [List.intercalate_cons_cons] using later

/-! ## Quoted texts -/

theorem parse?_between {cs : List Char} (h : Quotes q cs) :
    Expr.parse? (between q cs) = some (.lit cs) := by
  have read := parseLiteral?_between h []
  rw [List.append_nil] at read
  rw [Expr.parse?, read]

/-- A text with quotes of both kinds is put together from literals, one of which is a quote. -/
theorem exists_concat {cs : List Char} (quote : single ∈ cs) (other : double ∈ cs) :
    ∃ texts : List (List Char), texts.flatten = cs ∧ 2 ≤ texts.length ∧
      (∀ t ∈ texts, Quotes (quotesOf t) t) ∧ literalChars cs =
        "concat(".toList ++ ", ".toList.intercalate (texts.map quoted) ++ [')'] := by
  obtain ⟨texts, shape, flat, fits, quoteAlone⟩ :=
    exists_arguments (splitAtChar single cs) fun _ => notMem_of_mem_splitAtChar
  have alone := quoteAlone (two_le_length_splitAtChar quote)
  rw [intercalate_splitAtChar] at flat
  refine ⟨texts, flat, ?_, fits, ?_⟩
  · by_contra few
    -- The only argument would be the quote, and the text would hold no other one.
    obtain ⟨text, rfl⟩ : ∃ text, texts = [text] :=
      List.length_eq_one_iff.1 (by have := List.length_pos_of_mem alone; omega)
    obtain rfl := List.mem_singleton.1 alone
    rw [← flat] at other
    simp [single, double] at other
  · rw [literalChars, if_neg (not_not.2 quote), if_neg (not_not.2 other), shape]

theorem length_le_intercalate (texts : List (List Char)) :
    texts.length ≤ (", ".toList.intercalate (texts.map quoted)).length := by
  induction texts with
  | nil => simp
  | cons text texts ih =>
    have own : 0 < (quoted text).length := by simp [quoted, between]
    cases texts with
    | nil =>
      rw [List.map_singleton, List.intercalate_singleton]
      exact own
    | cons next texts =>
      rw [List.map_cons, List.map_cons, List.intercalate_cons_cons, ← List.map_cons]
      simp only [List.length_append, List.length_cons] at ih ⊢
      omega

theorem parse?_concat {texts : List (List Char)} (two : 2 ≤ texts.length)
    (fits : ∀ t ∈ texts, Quotes (quotesOf t) t) :
    Expr.parse? ("concat(".toList ++ ", ".toList.intercalate (texts.map quoted) ++ [')']) =
      some (.concat texts) := by
  let arguments := ", ".toList.intercalate (texts.map quoted)
  have body : "concat(".toList ++ arguments ++ [')'] =
      "concat(".toList ++ (arguments ++ [')']) := List.append_assoc ..
  have noLiteral : Expr.parseLiteral? ("concat(".toList ++ (arguments ++ [')'])) = none := rfl
  have begins : "concat(".toList.isPrefixOf ("concat(".toList ++ (arguments ++ [')'])) = true := by
    simp
  have rest : ("concat(".toList ++ (arguments ++ [')'])).drop 7 = arguments ++ [')'] := rfl
  have enough : texts.length ≤ ("concat(".toList ++ (arguments ++ [')'])).length := by
    have written := length_le_intercalate texts
    simp only [List.length_append, arguments]
    omega
  have some : texts ≠ [] := List.ne_nil_of_length_pos (by omega)
  have read := parseArguments?_intercalate some fits enough []
  rw [body, Expr.parse?, noLiteral]
  dsimp only
  rw [if_pos begins, rest, read]
  simp [two]

/-- A quoted text is read as an expression that stands for it, and leaves no token unfinished. -/
theorem exists_expr (cs : List Char) : ∃ e : Expr, Expr.parse? (literalChars cs) = some e ∧
    e.value = cs ∧ (∀ texts, e = .concat texts → 2 ≤ texts.length) ∧
    scan .between (literalChars cs) = (e.tokens, .between) := by
  by_cases quote : single ∈ cs
  · by_cases other : double ∈ cs
    · obtain ⟨texts, flat, two, fits, shape⟩ := exists_concat quote other
      have opens : scan .between "concat(".toList =
          ([.word "concat".toList, .symbol '('], .between) := by decide
      have closes : scan .between [')'] = ([.symbol ')'], .between) := by decide
      rw [shape]
      refine ⟨.concat texts, parse?_concat two fits, flat, by simpa using two, ?_⟩
      exact scan_append_of (scan_append_of opens (scan_intercalate fits)) closes
    · have fits : Quotes double cs := ⟨.inr rfl, other⟩
      have shape : literalChars cs = between double cs := by simp [literalChars, quote, other]
      exact ⟨.lit cs, shape ▸ parse?_between fits, rfl, nofun, shape ▸ scan_between fits⟩
  · have fits : Quotes single cs := ⟨.inl rfl, quote⟩
    have shape : literalChars cs = between single cs := by simp [literalChars, quote]
    exact ⟨.lit cs, shape ▸ parse?_between fits, rfl, nofun, shape ▸ scan_between fits⟩

theorem eq_of_literal_eq {v w : String} (same : literal v = literal w) : v = w := by
  obtain ⟨e, read, value, -⟩ := exists_expr v.toList
  obtain ⟨e', read', value', -⟩ := exists_expr w.toList
  have chars : literalChars v.toList = literalChars w.toList := String.ofList_injective same
  rw [chars, read'] at read
  obtain rfl := Option.some.inj read
  exact String.toList_injective (value.symm.trans value')

/-- **Quoting is exact.** A quoted text is one expression, a literal or a concatenation of two
literals or more, and stands for exactly this text. The query for a visible text has the tokens of
this expression in its frame, so the text is in its literals and nowhere else. Different texts give
different queries. -/
theorem quoting_exact (v : String) :
    ∃ e : Expr, Expr.parse? (literal v).toList = some e ∧ e.value = v.toList ∧
      (∀ texts, e = .concat texts → 2 ≤ texts.length) ∧
      tokens? (literal v).toList = some e.tokens ∧
      ∃ q, (⟨.visibleText, v⟩ : Selector).resolve = .ok q ∧ q.strategy = "xpath" ∧
        q.value = "//*[@text=" ++ literal v ++ "]" ∧
        tokens? q.value.toList = some ([.symbol '/', .symbol '/', .symbol '*', .symbol '[',
          .symbol '@', .word "text".toList, .symbol '='] ++ e.tokens ++ [.symbol ']']) ∧
        ∀ w, (⟨.visibleText, w⟩ : Selector).resolve = .ok q → w = v := by
  obtain ⟨e, read, value, two, scanned⟩ := exists_expr v.toList
  have chars : ∀ w, (literal w).toList = literalChars w.toList := fun w => String.toList_ofList
  have resolved : ∀ w, (⟨.visibleText, w⟩ : Selector).resolve =
      .ok ⟨"xpath", "//*[@text=" ++ literal w ++ "]"⟩ := fun w => by
    simp [Selector.resolve, Selector.Kind.toleratesEmpty, Selector.query]
  have opens : scan .between "//*[@text=".toList = ([.symbol '/', .symbol '/', .symbol '*',
      .symbol '[', .symbol '@', .word "text".toList, .symbol '='], .between) := by decide
  have closes : scan .between "]".toList = ([.symbol ']'], .between) := by decide
  refine ⟨e, by rw [chars, read], value, two, ?_, _, resolved v, rfl, rfl, ?_, fun w same => ?_⟩
  · simp [tokens?, chars, scanned, Mode.last?]
  · rw [String.toList_append, String.toList_append, chars, tokens?,
      scan_append_of (scan_append_of opens scanned) closes]
    simp [Mode.last?]
  · rw [resolved w] at same
    have queries : "//*[@text=" ++ literal w ++ "]" = "//*[@text=" ++ literal v ++ "]" :=
      congrArg Query.value (Except.ok.inj same)
    have literals := (String.append_right_inj _).1 ((String.append_left_inj _).1 queries)
    exact eq_of_literal_eq literals

/-- A quote at the beginning, and a text that looks like a concatenation. -/
example : literal "'concat(\"a\", ']" = "concat(\"'\", 'concat(\"a\", ', \"'\", ']')" := by
  decide +kernel

end UiRunner.XPath
