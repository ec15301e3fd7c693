import Mathlib.Data.List.Chain
import UiRunner.Files.Name
import UiRunner.Proofs.Files.Growth

/-!
# Names of files inside a directory

What a name becomes that a user gave can only name a file directly inside the directory that it is
joined to: it has no separator, no pair of dots, and does not begin with a dot. Such names stay as
they are, and no other name does.
-/
namespace UiRunner.Files

/-- The name can be joined to a directory: it takes no way out of it and none further down. -/
structure IsSafe (cs : List Char) : Prop where
  noSlash : '/' ∉ cs
  noBackslash : '\\' ∉ cs
  noDotPair : ¬ ['.', '.'] <:+: cs
  noDotFirst : cs.head? ≠ some '.'

/-! ## Pairs of dots -/

/-- Two characters that may stand next to each other. -/
def Apart (a b : Char) : Prop := ¬ (a = '.' ∧ b = '.')

theorem isChain_apart_iff {cs : List Char} : cs.IsChain Apart ↔ ¬ ['.', '.'] <:+: cs := by
  rw [List.isChain_iff_forall_rel_of_append_cons_cons]
  constructor
  · rintro apart ⟨before, after, rfl⟩
    have split_ : before ++ ['.', '.'] ++ after = before ++ '.' :: '.' :: after := by simp
    exact apart split_ ⟨rfl, rfl⟩
  · rintro none a b before after rfl ⟨rfl, rfl⟩
    exact none ⟨before, after, by simp⟩

/-- What is left of a text begins with a dot only if the text does. -/
theorem head?_of_dropDotPairs {cs : List Char} (h : (dropDotPairs cs).head? = some '.') :
    cs.head? = some '.' := by
  fun_cases dropDotPairs cs with
  | case1 => rfl
  | case2 c cs other => simpa [dropDotPairs] using h
  | case3 => exact h

/-- The removals form no pair of dots: where an odd run of dots was, one dot is left. -/
theorem isChain_dropDotPairs (cs : List Char) : (dropDotPairs cs).IsChain Apart := by
  fun_induction dropDotPairs cs with
  | case1 cs ih => exact ih
  | case2 c cs other ih =>
    refine List.isChain_cons.2 ⟨?_, ih⟩
    rintro d first ⟨rfl, rfl⟩
    obtain ⟨rest, rfl⟩ := List.head?_eq_some_iff.1 (head?_of_dropDotPairs first)
    exact other rest rfl rfl
  | case3 => exact .nil

theorem dropDotPairs_eq_self {cs : List Char} (apart : cs.IsChain Apart) :
    dropDotPairs cs = cs := by
  fun_induction dropDotPairs cs with
  | case1 cs ih => exact absurd ⟨rfl, rfl⟩ (List.isChain_cons_cons.1 apart).1
  | case2 c cs other ih => rw [ih apart.of_cons]
  | case3 => rfl

/-! ## Separators -/

theorem flattenSeparator_eq_dot_iff {c : Char} : flattenSeparator c = '.' ↔ c = '.' := by
  unfold flattenSeparator
  split
  · rename_i separator
    obtain rfl | rfl := separator <;> decide
  · rfl

theorem flattenSeparator_ne (c : Char) : flattenSeparator c ≠ '/' ∧ flattenSeparator c ≠ '\\' := by
  unfold flattenSeparator
  split
  · decide
  · simp_all

theorem isChain_map_flattenSeparator {cs : List Char} :
    (cs.map flattenSeparator).IsChain Apart ↔ cs.IsChain Apart := by
  rw [List.isChain_map]
  unfold Apart
  simp only [flattenSeparator_eq_dot_iff]

/-! ## Safe names -/

/-- What is made safe is safe. -/
theorem isSafe_safeNameChars (cs : List Char) : IsSafe (safeNameChars cs) := by
  have part : safeNameChars cs <:+ (dropDotPairs cs).map flattenSeparator := List.dropWhile_suffix _
  have flat : ∀ c ∈ safeNameChars cs, c ≠ '/' ∧ c ≠ '\\' := by
    intro c mem
    obtain ⟨d, -, rfl⟩ := List.mem_map.1 (part.subset mem)
    exact flattenSeparator_ne d
  refine ⟨fun mem => (flat _ mem).1 rfl, fun mem => (flat _ mem).2 rfl, ?_, fun first => ?_⟩
  · exact isChain_apart_iff.1
      ((isChain_map_flattenSeparator.2 (isChain_dropDotPairs cs)).suffix part)
  · have dropped := List.head?_dropWhile_not (· == '.') ((dropDotPairs cs).map flattenSeparator)
    rw [safeNameChars] at first
    simp [first] at dropped

theorem safeNameChars_eq_self {cs : List Char} (safe : IsSafe cs) : safeNameChars cs = cs := by
  have flat : cs.map flattenSeparator = cs := by
    refine (List.map_congr_left fun c mem => ?_).trans (List.map_id cs)
    have notSlash : c ≠ '/' := fun same => safe.noSlash (same ▸ mem)
    have notBackslash : c ≠ '\\' := fun same => safe.noBackslash (same ▸ mem)
    simp [flattenSeparator, notSlash, notBackslash]
  rw [safeNameChars, dropDotPairs_eq_self (isChain_apart_iff.2 safe.noDotPair), flat]
  have first := safe.noDotFirst
  cases cs with
  | nil => rfl
  | cons c cs => exact List.dropWhile_cons_of_neg (by simpa using first)

theorem safeName_eq_self_iff {name : String} : safeName name = name ↔ IsSafe name.toList := by
  constructor
  · intro same
    rw [← same, safeName, String.toList_ofList]
    exact isSafe_safeNameChars _
  · intro safe
    rw [safeName, safeNameChars_eq_self safe, String.ofList_toList]

theorem isSafe_safeName (name : String) : IsSafe (safeName name).toList := by
  rw [safeName, String.toList_ofList]
  exact isSafe_safeNameChars _

/-! ## Joining to a directory -/

theorem IsSafe.isAbsolute_eq {name : String} (safe : IsSafe name.toList) :
    Path.isAbsolute name = false := by
  refine beq_eq_false_iff_ne.2 fun first => safe.noSlash ?_
  exact List.mem_of_head? first

/-- A path that is not absolute stands behind the directory and one slash. -/
theorem toList_join (dir : Path) {p : Path} (relative : p.isAbsolute = false) :
    (dir = "" ∧ Path.join dir p = p) ∨
      ∃ front, (dir.toList = front ++ ['/'] ∨ front ≠ [] ∧ dir.toList = front) ∧
        (Path.join dir p).toList = front ++ '/' :: p.toList := by
  unfold Path.join
  rw [relative, Bool.false_or]
  split
  · rename_i empty
    exact .inl ⟨String.isEmpty_iff.1 empty, rfl⟩
  · rename_i named
    split
    · rename_i slash
      obtain ⟨front, closed⟩ := List.getLast?_eq_some_iff.1 (beq_iff_eq.1 slash)
      exact .inr ⟨front, .inl closed, by simp [closed]⟩
    · have some_ : dir.toList ≠ [] := by simpa [String.isEmpty_iff] using named
      exact .inr ⟨dir.toList, .inr ⟨some_, rfl⟩, by simp⟩

theorem isAbsolute_join {dir p : Path} (relative : p.isAbsolute = false) :
    (Path.join dir p).isAbsolute = dir.isAbsolute := by
  obtain ⟨rfl, same⟩ | ⟨front, dirIs, joined⟩ := toList_join dir relative
  · rw [same, relative]
    rfl
  · unfold Path.isAbsolute
    rw [joined]
    obtain dirIs | ⟨some_, dirIs⟩ := dirIs
    · rw [dirIs]
      cases front <;> rfl
    · rw [dirIs, List.head?_append_of_ne_nil _ some_]

/-- A safe name is one more name on the way. -/
theorem segments_join {name : String} (safe : IsSafe name.toList) (named : name ≠ "") (dir : Path) :
    Tree.segments (Path.join dir name) = Tree.segments dir ++ [name] := by
  have own : Tree.namesIn name.toList = [name.toList] := by
    have whole : name.toList.splitOn '/' = [name.toList] :=
      List.splitOnP_eq_singleton fun c mem => beq_eq_false_iff_ne.2 fun same =>
        safe.noSlash (same ▸ mem)
    simp [Tree.namesIn, whole, named]
  rw [Tree.segments_eq, Tree.segments_eq]
  obtain ⟨rfl, same⟩ | ⟨front, dirIs, joined⟩ := toList_join dir safe.isAbsolute_eq
  · simp [same, own]
  · obtain dirIs | ⟨-, dirIs⟩ := dirIs <;> simp [joined, dirIs, Tree.namesIn_append, own]

theorem join_ne_empty {name : String} (safe : IsSafe name.toList) (named : name ≠ "")
    (dir : Path) : Path.join dir name ≠ "" := by
  obtain ⟨-, same⟩ | ⟨front, -, joined⟩ := toList_join dir safe.isAbsolute_eq
  · rwa [same]
  · intro empty
    simp [empty] at joined

theorem IsSafe.isOwn {name : String} (safe : IsSafe name.toList) : Tree.IsOwn name := by
  refine ⟨?_, ?_⟩ <;> rintro rfl <;> exact safe.noDotFirst rfl

/-- Behind its last name a path has nothing to trim. -/
theorem trimReversed_eq_self {c : Char} {cs : List Char} (fuel : Nat) (notSlash : c ≠ '/')
    (notDot : c = '.' → cs.head? ≠ some '/') : Path.trimReversed fuel (c :: cs) = c :: cs := by
  generalize whole : c :: cs = all
  fun_cases Path.trimReversed fuel all with
  | case1 | case4 => rfl
  | case2 =>
    cases whole
    exact absurd rfl notSlash
  | case3 =>
    cases whole
    exact absurd rfl (notDot rfl)

theorem fileName?_of_last {name : String} {p : Path} {before : List Char}
    (safe : IsSafe name.toList) (named : name ≠ "") (starts : before = [] ∨ before.head? = some '/')
    (last : p.toList.reverse = name.toList.reverse ++ before) : p.fileName? = some name := by
  have own := safe.isOwn
  have noSlash : '/' ∉ name.toList.reverse := by simpa using safe.noSlash
  cases chars : name.toList.reverse with
  | nil => simp_all
  | cons c cs =>
    have significant : Path.significant p = name.toList.reverse ++ before := by
      rw [Path.significant, last, chars, List.cons_append]
      refine trimReversed_eq_self _ (by rintro rfl; simp [chars] at noSlash) ?_
      rintro rfl
      cases cs with
      | nil =>
        have dot : name.toList = ['.'] := by simpa using congrArg List.reverse chars
        exact absurd (String.toList_injective dot) own.1
      | cons d cs =>
        rintro first
        simp_all
    have taken : (name.toList.reverse ++ before).takeWhile (· != '/') = name.toList.reverse := by
      have none : before.takeWhile (· != '/') = [] := by
        obtain rfl | first := starts
        · rfl
        · obtain ⟨rest, rfl⟩ := List.head?_eq_some_iff.1 first
          rfl
      have plain : ∀ d ∈ name.toList.reverse, (d != '/') = true := by
        intro d mem
        refine bne_iff_ne.2 ?_
        rintro rfl
        exact noSlash mem
      rw [List.takeWhile_append_of_pos plain, none, List.append_nil]
    have split_ : (Path.splitReversed (Path.significant p)).1 = name.toList := by
      simp only [Path.splitReversed, significant, taken, List.reverse_reverse]
    have notDots : name.toList ≠ ['.'] ∧ name.toList ≠ ['.', '.'] :=
      ⟨fun dot => own.1 (String.toList_injective dot), fun up => own.2 (String.toList_injective up)⟩
    unfold Path.fileName?
    split
    · simp_all
    · simp_all
    · simp [split_, notDots]

theorem fileName?_join {name : String} (safe : IsSafe name.toList) (named : name ≠ "")
    (dir : Path) : (Path.join dir name).fileName? = some name := by
  obtain ⟨-, same⟩ | ⟨front, -, joined⟩ := toList_join dir safe.isAbsolute_eq
  · exact fileName?_of_last safe named (.inl rfl) (by rw [same, List.append_nil])
  · have reversed : (Path.join dir name).toList.reverse =
        name.toList.reverse ++ '/' :: front.reverse := by simp [joined]
    exact fileName?_of_last safe named (.inr rfl) reversed

namespace Tree

variable {s : Storage} {t : Tree} {dir : Path} {name : String} {place parent : Place}
  {node : Option Node}

theorem origin_join (safe : IsSafe name.toList) (t : Tree) (dir : Path) :
    t.origin (Path.join dir name) = t.origin dir := by
  rw [origin, origin, isAbsolute_join safe.isAbsolute_eq]

/-- What a safe name leads to lies directly inside what the directory leads to, unless a link stands
there. -/
theorem leads_of_locate_join (safe : IsSafe name.toList) (named : name ≠ "")
    (located : s.locate t (Path.join dir name) = .ok (place, node)) :
    ∃ parent, resolveIn s t dir = .ok parent ∧ s.leads (parent ++ [name]) = .ok place := by
  obtain ⟨found, -⟩ := Storage.locate_eq_ok_iff.1 located
  obtain ⟨-, walked⟩ := Storage.place_eq_ok_iff.1 found
  have way := walk_eq_ok_iff.1 walked
  rw [segments_join safe named, origin_join safe] at way
  obtain ⟨parent, led, ends⟩ := way.of_snoc safe.isOwn
  exact ⟨parent, walk_eq_ok_iff.2 led, ends⟩

theorem wantsDirectory_join (safe : IsSafe name.toList) (named : name ≠ "") (dir : Path) :
    wantsDirectory (Path.join dir name) = false := by
  refine beq_eq_false_iff_ne.2 fun last => safe.noSlash (List.mem_of_getLast? (?_ : _ = some '/'))
  have some_ : name.toList ≠ [] := by simpa using named
  obtain ⟨rfl, same⟩ | ⟨front, -, joined⟩ := toList_join dir safe.isAbsolute_eq
  · rwa [same] at last
  · rw [joined] at last
    rw [← last, ← List.singleton_append, ← List.append_assoc,
      List.getLast?_append_of_ne_nil _ some_]

/-- The operating system takes a path: it has no zero character, and neither it nor its last name
is too long. -/
structure Takes (p : Path) (name : String) : Prop where
  noNul : '\x00' ∉ p.toList
  fits : p.utf8ByteSize ≤ maxPath
  short : name.utf8ByteSize ≤ maxName

theorem locate_join_of_dir (safe : IsSafe name.toList) (named : name ≠ "")
    (taken : Takes (Path.join dir name) name) (led : t.resolve dir = .ok parent)
    (isDir : t.get? parent = some .dir) :
    t.locate (Path.join dir name) = .ok (parent ++ [name], t.get? (parent ++ [name])) := by
  have way : Way .plain t true _ _ _ :=
    (walk_eq_ok_iff.1 led).snoc isDir safe.isOwn taken.short rfl
  rw [← segments_join safe named, ← origin_join safe t dir] at way
  have some_ : ¬ (Path.join dir name).isEmpty := by
    rw [String.isEmpty_iff]
    exact join_ne_empty safe named dir
  refine Storage.locate_eq_ok_iff.2 ⟨Storage.place_eq_ok_iff.2
    ⟨⟨taken.noNul, some_, Nat.not_lt.2 taken.fits⟩, walk_eq_ok_iff.2 way⟩, rfl, ?_⟩
  rw [wantsDirectory_join safe named]
  simp

end Tree

/-- **File names cannot escape.** What a name becomes has no separator and no pair of dots, also
none that the removals have formed, and does not begin with a dot. It becomes nothing else when it
is made safe again, and the names that stay as they are are those that are safe already. Joined to a
directory, unless nothing is left of it, it is one more name on the way and the last one of the
path: in every tree, what the path leads to lies directly inside what the directory leads to, and
where the directory exists the path leads there, if the operating system takes it. -/
theorem safeName_names_child (name : String) :
    IsSafe (safeName name).toList ∧
    safeName (safeName name) = safeName name ∧
    (safeName name = name ↔ IsSafe name.toList) ∧
    (safeName name ≠ "" → ∀ dir : Path,
      Tree.segments (Path.join dir (safeName name)) = Tree.segments dir ++ [safeName name] ∧
      (Path.join dir (safeName name)).isAbsolute = dir.isAbsolute ∧
      (Path.join dir (safeName name)).fileName? = some (safeName name) ∧
      ∀ t : Tree,
        (∀ place node, t.locate (Path.join dir (safeName name)) = .ok (place, node) →
          ∃ parent, t.resolve dir = .ok parent ∧ place = parent ++ [safeName name]) ∧
        ∀ parent, t.resolve dir = .ok parent → t.get? parent = some .dir →
          Tree.Takes (Path.join dir (safeName name)) (safeName name) →
          t.locate (Path.join dir (safeName name)) =
            .ok (parent ++ [safeName name], t.get? (parent ++ [safeName name]))) := by
  have safe := isSafe_safeName name
  refine ⟨safe, safeName_eq_self_iff.2 safe, safeName_eq_self_iff, fun named dir => ?_⟩
  refine ⟨segments_join safe named dir, isAbsolute_join safe.isAbsolute_eq,
    fileName?_join safe named dir, fun t =>
      ⟨fun place node located => ?_,
        fun parent led isDir taken => Tree.locate_join_of_dir safe named taken led isDir⟩⟩
  obtain ⟨parent, led, ends⟩ := Tree.leads_of_locate_join safe named located
  exact ⟨parent, led, (Except.ok.inj ends).symm⟩

/-- Seven dots leave one behind the separator, which is no step out of the reports. -/
theorem safeName_names_child_dots : ∃ place,
    safeName "../.......png" = "_.png" ∧
    (⟨["home"], [(["home"], .dir), (["home", "reports"], .dir)]⟩ : Tree).locate
      (Path.join "./reports/" (safeName "../.......png")) = .ok (place, none) ∧
    place = ["home", "reports", "_.png"] := by
  let t : Tree := ⟨["home"], [(["home"], .dir), (["home", "reports"], .dir)]⟩
  have flat : safeName "../.......png" = "_.png" := by decide +kernel
  obtain ⟨-, -, -, joins⟩ := safeName_names_child "../.......png"
  have named : safeName "../.......png" ≠ "" := by simp [flat]
  obtain ⟨-, -, -, leads⟩ := joins named "./reports/"
  have led : t.resolve "./reports/" = .ok ["home", "reports"] := by decide +kernel
  have taken : Tree.Takes (Path.join "./reports/" (safeName "../.......png"))
      (safeName "../.......png") := by
    rw [flat]
    exact ⟨by decide +kernel, by decide +kernel, by decide +kernel⟩
  have located := (leads t).2 _ led rfl taken
  obtain ⟨parent, led', same⟩ := (leads t).1 _ _ located
  cases led.symm.trans led'
  rw [flat] at located same ⊢
  exact ⟨_, rfl, located, same⟩

end UiRunner.Files
