import Mathlib.Data.List.Forall2
import UiRunner.Text.Blank
import UiRunner.Text.Lines

/-!
# Texts made of lines and words

How lines make a text, and how they are found in it again. A line ends in a line feed, perhaps with
a carriage return before it, and the last one need not end at all. A word ends where a blank
follows.
-/
namespace UiRunner.Text

variable {line cs word rest : List Char} {lines : List (List Char)} {c : Char}

/-! ## Lines -/

/-- What a line may end in. -/
def endings : List (List Char) := [['\n'], ['\r', '\n']]

/-- These lines, one behind the other, make the text. -/
inductive Written : List (List Char) → List Char → Prop where
  | nil : Written [] []
  /-- The last line may be left open. -/
  | last {line : List Char} : line ≠ [] → '\n' ∉ line → Written [line] line
  | ended {line ending rest : List Char} {lines : List (List Char)} : '\n' ∉ line →
      ending ∈ endings → Written lines rest → Written (line :: lines) (line ++ ending ++ rest)

/-- Every text is made of lines. -/
theorem exists_written (cs : List Char) : ∃ lines, Written lines cs := by
  induction cs with
  | nil => exact ⟨[], .nil⟩
  | cons c cs ih =>
    obtain ⟨lines, written⟩ := ih
    by_cases feed : c = '\n'
    · have ended : Written ([] :: lines) ([] ++ ['\n'] ++ cs) :=
        .ended (by simp) (by simp [endings]) written
      exact ⟨_, feed ▸ ended⟩
    have other : '\n' ≠ c := Ne.symm feed
    cases written with
    | nil => exact ⟨[[c]], .last (by simp) (by simp [other])⟩
    | last _ open_ => exact ⟨[c :: cs], .last (by simp) (by simp [other, open_])⟩
    | @ended line ending rest lines open_ ends written =>
      exact ⟨(c :: line) :: lines, .ended (by simp [other, open_]) ends written⟩

/-- A line begins where the text does or behind a line feed. -/
theorem Written.exists_append (h : Written lines cs) (mem : line ∈ lines) :
    ∃ before after, cs = before ++ line ++ after ∧ (before = [] ∨ before.getLast? = some '\n') := by
  induction h with
  | nil => cases mem
  | last =>
    obtain rfl := List.mem_singleton.1 mem
    exact ⟨[], [], by simp, .inl rfl⟩
  | @ended first ending rest lines _ ends _ ih =>
    obtain rfl | later := List.mem_cons.1 mem
    · exact ⟨[], ending ++ rest, by simp, .inl rfl⟩
    · obtain ⟨before, after, rfl, begins⟩ := ih later
      refine ⟨first ++ ending ++ before, after, by simp, .inr ?_⟩
      have feed : ending.getLast? = some '\n' := by
        simp only [endings, List.mem_cons, List.not_mem_nil, or_false] at ends
        obtain rfl | rfl := ends <;> rfl
      obtain rfl | begins := begins
      · simp [List.getLast?_append, feed]
      · simp [List.getLast?_append, begins]

theorem pieces_eq_splitOn (cs : List Char) : pieces cs = cs.splitOn '\n' := by
  induction cs with
  | nil => rfl
  | cons c cs ih =>
    obtain ⟨piece, more, found⟩ := List.exists_cons_of_ne_nil (List.splitOn_ne_nil '\n' cs)
    rw [pieces, ih, List.splitOn_cons_eq_if_modifyHead, found]
    simp

theorem linesChars_append (open_ : '\n' ∉ line) (rest : List Char) :
    linesChars (line ++ '\n' :: rest) = dropReturn line :: linesChars rest := by
  obtain ⟨piece, more, found⟩ := List.exists_cons_of_ne_nil (List.splitOn_ne_nil '\n' rest)
  rw [linesChars, linesChars, pieces_eq_splitOn, pieces_eq_splitOn,
    List.splitOn_append_cons_self_of_not_mem open_, found]
  simp only [List.dropLast_cons_cons, List.map_cons, List.getLast?_cons_cons]
  rcases (piece :: more).getLast? with _ | _ | ⟨c, last⟩ <;> rfl

theorem linesChars_of_open (some_ : line ≠ []) (open_ : '\n' ∉ line) :
    linesChars line = [line] := by
  rw [linesChars, pieces_eq_splitOn, List.splitOn_eq_singleton open_]
  cases line with
  | nil => exact absurd rfl some_
  | cons c line => rfl

/-- A line that is found in a text is one of those that make it, without a return at its end. -/
def IsFound (line found : List Char) : Prop := found = line ∨ line = found ++ ['\r']

theorem isFound_dropReturn (line : List Char) : IsFound line (dropReturn line) := by
  unfold dropReturn
  split
  · rename_i returns
    exact .inr (List.dropLast_append_getLast? _ returns).symm
  · exact .inl rfl

/-- The lines that make a text are found in it, one by one. -/
theorem Written.isFound (h : Written lines cs) : List.Forall₂ IsFound lines (linesChars cs) := by
  induction h with
  | nil => exact .nil
  | last some_ open_ =>
    rw [linesChars_of_open some_ open_]
    exact .cons (.inl rfl) .nil
  | @ended line ending rest lines open_ ends _ ih =>
    simp only [endings, List.mem_cons, List.not_mem_nil, or_false] at ends
    obtain rfl | rfl := ends
    · rw [List.append_assoc, List.singleton_append, linesChars_append open_]
      exact .cons (isFound_dropReturn line) ih
    · have split : line ++ ['\r', '\n'] ++ rest = (line ++ ['\r']) ++ '\n' :: rest := by simp
      have open' : '\n' ∉ line ++ ['\r'] := by simp [open_]
      have dropped : dropReturn (line ++ ['\r']) = line := by simp [dropReturn]
      rw [split, linesChars_append open', dropped]
      exact .cons (.inl rfl) ih

/-! ## Words -/

theorem runsWithout_eq_splitOnP (p : Char → Bool) (cs : List Char) :
    runsWithout p cs = (cs.splitOnP p).filter (!·.isEmpty) := by
  refine congrArg (List.filter _) ?_
  induction cs with
  | nil => rfl
  | cons c cs ih =>
    obtain ⟨run, more, found⟩ := List.exists_cons_of_ne_nil (List.splitOnP_ne_nil p cs)
    rw [List.foldr_cons, ih, List.splitOnP_cons_eq_if_modifyHead, found]
    rfl

/-- Some characters, none of them blank. -/
structure IsWord (cs : List Char) : Prop where
  some_ : cs ≠ []
  visible : ∀ c ∈ cs, isBlank c = false

instance (cs : List Char) : Decidable (IsWord cs) :=
  decidable_of_iff (cs ≠ [] ∧ cs.any isBlank = false) <| by
    rw [List.any_eq_false]
    exact ⟨fun h => ⟨h.1, by simpa using h.2⟩, fun h => ⟨h.some_, by simpa using h.visible⟩⟩

theorem IsWord.wordsChars_eq (h : IsWord word) : wordsChars word = [word] := by
  rw [wordsChars, runsWithout_eq_splitOnP, List.splitOnP_eq_singleton h.visible]
  simp [h.some_]

/-- A blank parts the words before it from those behind it. -/
theorem wordsChars_append_cons (blank : isBlank c = true) (cs rest : List Char) :
    wordsChars (cs ++ c :: rest) = wordsChars cs ++ wordsChars rest := by
  simp only [wordsChars, runsWithout_eq_splitOnP, List.splitOnP_append_cons cs rest blank,
    List.filter_append]

@[simp] theorem wordsChars_nil : wordsChars [] = [] := rfl

theorem wordsChars_append_of_blank {gap : List Char} (blank : ∀ c ∈ gap, isBlank c = true)
    (rest : List Char) : wordsChars (gap ++ rest) = wordsChars rest := by
  induction gap with
  | nil => rfl
  | cons c gap ih =>
    rw [List.forall_mem_cons] at blank
    exact (wordsChars_append_cons blank.1 [] (gap ++ rest)).trans (ih blank.2)

/-- A word, and what begins with a blank behind it. -/
theorem IsWord.wordsChars_append (h : IsWord word)
    (ends : ∀ c, rest.head? = some c → isBlank c = true) :
    wordsChars (word ++ rest) = word :: wordsChars rest := by
  cases rest with
  | nil => rw [List.append_nil, h.wordsChars_eq, wordsChars_nil]
  | cons c rest =>
    have blank := ends c rfl
    rw [wordsChars_append_cons blank, h.wordsChars_eq]
    exact congrArg (word :: ·) (wordsChars_append_cons blank [] rest).symm

end UiRunner.Text
