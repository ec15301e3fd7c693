/-!
# Blanks

The white space of Unicode, and the trimming and splitting of texts at it. `trim` removes blanks
at both ends; `words` are the longest runs without a blank.
-/
namespace UiRunner.Text

/-- White space in the sense of the Unicode property of that name. -/
def isBlank (c : Char) : Bool :=
  let n := c.toNat
  (0x9 ≤ n && n ≤ 0xD) || n == 0x20 || n == 0x85 || n == 0xA0 || n == 0x1680 ||
    (0x2000 ≤ n && n ≤ 0x200A) || n == 0x2028 || n == 0x2029 || n == 0x202F || n == 0x205F ||
    n == 0x3000

/-- Removes a longest run at the end. -/
def dropTrailing (p : Char → Bool) (cs : List Char) : List Char :=
  (cs.reverse.dropWhile p).reverse

def trimChars (cs : List Char) : List Char := dropTrailing isBlank (cs.dropWhile isBlank)

def trim (s : String) : String := .ofList (trimChars s.toList)

def isBlankText (s : String) : Bool := s.toList.all isBlank

/-- The runs without a character of the class, left to right; none of them is empty. -/
def runsWithout (p : Char → Bool) (cs : List Char) : List (List Char) :=
  cs.foldr (fun c acc =>
    if p c then [] :: acc
    else match acc with
      | [] => [[c]]
      | run :: rest => (c :: run) :: rest) [[]]
  |>.filter (!·.isEmpty)

def wordsChars (cs : List Char) : List (List Char) := runsWithout isBlank cs

def words (s : String) : List String := (wordsChars s.toList).map .ofList

/-- Letters A to Z become small; every other character stays. -/
def lowerAscii (s : String) : String := s.map Char.toLower

/-- Letters a to z become capital; every other character stays. -/
def upperAscii (s : String) : String := s.map Char.toUpper

/-- Every occurrence of `old`, read left to right without overlap, is replaced. -/
def replaceChars (old new : List Char) : Nat → List Char → List Char
  | 0, cs => cs
  | _ + 1, [] => []
  | fuel + 1, c :: cs =>
    if !old.isEmpty && old.isPrefixOf (c :: cs) then
      new ++ replaceChars old new fuel ((c :: cs).drop old.length)
    else c :: replaceChars old new fuel cs

def replaceAll (old new : String) (s : String) : String :=
  .ofList (replaceChars old.toList new.toList s.length s.toList)

/-- Whether the text occurs, also the empty one. -/
def occursIn (part : List Char) : List Char → Bool
  | [] => part.isEmpty
  | c :: cs => part.isPrefixOf (c :: cs) || occursIn part cs

def contains (s part : String) : Bool := occursIn part.toList s.toList

/-- Fills up with blanks on the right to the given number of characters. -/
def padRight (width : Nat) (s : String) : String :=
  s ++ String.ofList (List.replicate (width - s.length) ' ')

@[simp] theorem trimChars_nil : trimChars [] = [] := rfl

/-- Blanks at both ends are trimmed, and no others. -/
theorem trimChars_append (before body after : List Char)
    (blank : ∀ c ∈ before ++ after, isBlank c = true)
    (first : ∀ c, body.head? = some c → isBlank c = false)
    (last : ∀ c, body.getLast? = some c → isBlank c = false) :
    trimChars (before ++ body ++ after) = body := by
  have keeps : ∀ l : List Char, (∀ c, l.head? = some c → isBlank c = false) →
      l.dropWhile isBlank = l := by
    intro l visible
    cases l with
    | nil => rfl
    | cons c l => simp [visible c rfl]
  have drops : (before ++ body ++ after).dropWhile isBlank = (body ++ after).dropWhile isBlank := by
    rw [List.append_assoc, List.dropWhile_append_of_pos fun c mem => blank c (by simp [mem])]
  rw [trimChars, drops]
  cases body with
  | nil =>
    have gone : (after ++ []).dropWhile isBlank = [] :=
      List.dropWhile_append_of_pos fun c mem => blank c (by simp [mem])
    rw [List.append_nil] at gone
    rw [List.nil_append, gone]
    rfl
  | cons c rest =>
    rw [keeps _ (by simpa using first), dropTrailing, List.reverse_append,
      List.dropWhile_append_of_pos fun c mem => blank c (by simp_all),
      keeps _ fun c at_ => last c (List.head?_reverse ▸ at_), List.reverse_reverse]

/-- What is trimmed are blanks. -/
theorem exists_trimChars (cs : List Char) : ∃ before after,
    cs = before ++ trimChars cs ++ after ∧ ∀ c ∈ before ++ after, isBlank c = true := by
  let rest := cs.dropWhile isBlank
  refine ⟨cs.takeWhile isBlank, (rest.reverse.takeWhile isBlank).reverse, ?_, ?_⟩
  · rw [trimChars, dropTrailing, List.append_assoc, ← List.reverse_append,
      List.takeWhile_append_dropWhile, List.reverse_reverse, List.takeWhile_append_dropWhile]
  · have taken : ∀ l : List Char, ∀ c ∈ l.takeWhile isBlank, isBlank c = true := by
      intro l
      exact List.all_eq_true.1 List.all_takeWhile
    intro c mem
    obtain mem | mem := List.mem_append.1 mem
    · exact taken _ c mem
    · exact taken _ c (List.mem_reverse.1 mem)

/-- Nothing is trimmed where there are no blanks. -/
theorem trimChars_of_forall {cs : List Char} (h : ∀ c ∈ cs, isBlank c = false) :
    trimChars cs = cs := by
  have trimmed := trimChars_append [] cs [] (by simp)
    (fun c at_ => h c (List.mem_of_head? at_)) fun c at_ => h c (List.mem_of_getLast? at_)
  simpa using trimmed

theorem of_mem_runsWithout {p : Char → Bool} {cs run : List Char} (h : run ∈ runsWithout p cs) :
    run ≠ [] ∧ ∀ c ∈ run, p c = false := by
  obtain ⟨found, notEmpty⟩ := List.mem_filter.1 h
  refine ⟨by simpa using notEmpty, ?_⟩
  clear notEmpty h
  induction cs generalizing run with
  | nil => simp_all
  | cons c cs ih =>
    rw [List.foldr_cons] at found
    split at found
    · obtain rfl | later := List.mem_cons.1 found
      · simp
      · exact ih later
    · split at found
      · simp_all
      · rename_i first rest runs
        rw [runs] at ih
        obtain rfl | later := List.mem_cons.1 found
        · simp_all
        · exact ih (List.mem_cons_of_mem _ later)

@[simp] theorem occursIn_nil (cs : List Char) : occursIn [] cs = true := by
  cases cs <;> simp [occursIn]

end UiRunner.Text
