import Mathlib.Data.List.Infix
import Mathlib.Data.List.TakeWhile
import UiRunner.Files.Storage

/-!
# What operations change in a tree

Making directories adds directories where there was nothing, at places that lie on the way of the
path, and changes nothing else, whether it succeeds or not. Writing a file changes the place that
its path leads to, and nothing else.
-/
namespace UiRunner.Files

namespace Tree

variable {s : Storage} {t u v : Tree} {follow : Bool} {p dir : Path} {at_ place next parent : Place}
  {names : List String} {name : String}

/-! ## Ways -/

/-- A name of its own, and no step to where one is or came from. -/
def IsOwn (name : String) : Prop := name ≠ "." ∧ name ≠ ".."

/-- Names lead from a directory to a place. Only the last one need not exist; links on the way are
followed, and one at the end if the caller wants it. -/
inductive Way (s : Storage) (t : Tree) (follow : Bool) : Place → List String → Place → Prop where
  | here (at_ : Place) : Way s t follow at_ [] at_
  | dot {at_ place : Place} {rest : List String} : Way s t follow at_ rest place →
      Way s t follow at_ ("." :: rest) place
  | up {at_ place : Place} {rest : List String} : Way s t follow at_.dropLast rest place →
      Way s t follow at_ (".." :: rest) place
  | last {at_ place : Place} {name : String} : IsOwn name → name.utf8ByteSize ≤ maxName →
      s.reach follow (at_ ++ [name]) = .ok place → Way s t follow at_ [name] place
  | into {at_ next place : Place} {name : String} {rest : List String} : IsOwn name →
      name.utf8ByteSize ≤ maxName → rest ≠ [] → s.leads (at_ ++ [name]) = .ok next →
      t.get? next = some .dir → Way s t follow next rest place →
      Way s t follow at_ (name :: rest) place

theorem walk_eq_ok_iff :
    s.walk t follow at_ names = .ok place ↔ Way s t follow at_ names place := by
  constructor
  · intro walked
    fun_induction Storage.walk s t follow at_ names with
    | case1 at_ =>
      cases walked
      exact .here _
    | case2 at_ name rest dot ih =>
      obtain rfl := beq_iff_eq.1 dot
      exact .dot (ih walked)
    | case3 at_ name rest dot up ih =>
      obtain rfl := beq_iff_eq.1 up
      exact .up (ih walked)
    | case4 => cases walked
    | case5 at_ name rest dot up short last =>
      obtain rfl := List.isEmpty_iff.1 last
      exact .last ⟨by simpa using dot, by simpa using up⟩ (Nat.not_lt.1 short) walked
    | case6 | case7 | case8 => cases walked
    | case9 at_ name rest dot up short last next led dir ih =>
      exact .into ⟨by simpa using dot, by simpa using up⟩ (Nat.not_lt.1 short)
        (by simpa using last) led dir (ih walked)
  · intro way
    induction way with
    | here at_ => rfl
    | dot _ ih => simpa [Storage.walk] using ih
    | up _ ih => simpa [Storage.walk] using ih
    | last own short led => simp [Storage.walk, own.1, own.2, Nat.not_lt.2 short, led]
    | into own short more led dir way ih =>
      simpa [Storage.walk, own.1, own.2, Nat.not_lt.2 short, more, led, dir] using ih

/-- A way that ends with a name of its own ends inside the place before, or where that leads. -/
theorem Way.of_snoc (way : Way s t follow at_ (names ++ [name]) place) (own : IsOwn name) :
    ∃ parent, Way s t true at_ names parent ∧ s.reach follow (parent ++ [name]) = .ok place := by
  induction names generalizing at_ with
  | nil =>
    cases way with
    | dot => exact absurd rfl own.1
    | up => exact absurd rfl own.2
    | last _ _ led => exact ⟨at_, .here at_, led⟩
    | into _ _ more => exact absurd rfl more
  | cons first rest ih =>
    generalize whole : first :: rest ++ [name] = names at way
    cases way with
    | here => cases whole
    | dot way =>
      cases whole
      obtain ⟨parent, led, ends⟩ := ih way
      exact ⟨parent, .dot led, ends⟩
    | up way =>
      cases whole
      obtain ⟨parent, led, ends⟩ := ih way
      exact ⟨parent, .up led, ends⟩
    | last => simp at whole
    | into ownFirst short _ through isDir way =>
      cases whole
      obtain ⟨parent, led, ends⟩ := ih way
      cases rest with
      | nil =>
        cases led
        exact ⟨_, .last ownFirst short through, ends⟩
      | cons => exact ⟨parent, .into ownFirst short (by simp) through isDir led, ends⟩

/-- A directory has room for a name that is not too long. -/
theorem Way.snoc (way : Way s t true at_ names parent) (isDir : t.get? parent = some .dir)
    (own : IsOwn name) (short : name.utf8ByteSize ≤ maxName)
    (ends : s.reach follow (parent ++ [name]) = .ok place) :
    Way s t follow at_ (names ++ [name]) place := by
  induction way with
  | here at_ => exact .last own short ends
  | dot _ ih => exact .dot (ih isDir ends)
  | up _ ih => exact .up (ih isDir ends)
  | last ownFirst fits through =>
    exact .into ownFirst fits (by simp) through isDir (.last own short ends)
  | into ownFirst fits _ through isNext _ ih =>
    exact .into ownFirst fits (by simp) through isNext (ih isDir ends)

/-- It makes no difference whether the end is followed when no link stands there. -/
theorem Way.followed (way : Way s t false at_ names place) (own : s.isLink place = false) :
    Way s t true at_ names place := by
  induction way with
  | here at_ => exact .here at_
  | dot _ ih => exact .dot (ih own)
  | up _ ih => exact .up (ih own)
  | last ownName short ends =>
    obtain rfl := Except.ok.inj ends
    refine .last ownName short ?_
    rw [Storage.reach, if_pos rfl]
    unfold Storage.isLink at own
    split at own
    · rename_i target led
      rw [led, bne_eq_false_iff_eq.1 own]
    · cases own
  | into ownName short more through isDir _ ih =>
    exact .into ownName short more through isDir (ih own)

/-- The place that the way of a path leads to. -/
def resolveIn (s : Storage) (t : Tree) (p : Path) : Except Problem Place :=
  s.walk t true (t.origin p) (segments p)

/-- The place that the way of a path leads to, where there are no links. -/
abbrev resolve (t : Tree) (p : Path) : Except Problem Place := resolveIn .plain t p

/-! ## Trees that grow -/

/-- Directories were added at places of `P`, and nothing else has changed. -/
structure Grown (P : Place → Prop) (t u : Tree) : Prop where
  cwd : u.cwd = t.cwd
  get? : ∀ place, u.get? place = t.get? place ∨
    t.get? place = none ∧ u.get? place = some .dir ∧ P place

namespace Grown

variable {P Q : Place → Prop}

theorem refl (P : Place → Prop) (t : Tree) : Grown P t t := ⟨rfl, fun _ => .inl rfl⟩

theorem mono (h : Grown P t u) (le : ∀ place, P place → Q place) : Grown Q t u where
  cwd := h.cwd
  get? place := (h.get? place).imp_right fun ⟨before, after, here⟩ => ⟨before, after, le _ here⟩

theorem trans (h : Grown P t u) (g : Grown P u v) : Grown P t v where
  cwd := g.cwd.trans h.cwd
  get? place := by
    obtain same | ⟨before, after, here⟩ := g.get? place
    · rw [same]
      exact h.get? place
    · obtain same | ⟨-, dir, -⟩ := h.get? place
      · exact .inr ⟨same ▸ before, after, here⟩
      · cases before.symm.trans dir

/-- A new directory where there was nothing. -/
theorem put (free : t.get? place = none) (here : P place) : Grown P t (t.put place .dir) where
  cwd := rfl
  get? other := by
    have named : place ≠ [] := by
      rintro rfl
      cases free
    rw [get?_put t place other .dir named]
    split
    · rename_i same
      subst same
      exact .inr ⟨free, rfl, here⟩
    · exact .inl rfl

theorem get?_eq (h : Grown P t u) {node : Node} (held : t.get? place = some node) :
    u.get? place = some node := by
  obtain same | ⟨free, -⟩ := h.get? place
  · rw [same, held]
  · cases free.symm.trans held

/-- Files are where they were, and what they were. -/
theorem file_iff (h : Grown P t u) {content : Bytes} :
    u.get? place = some (.file content) ↔ t.get? place = some (.file content) := by
  refine ⟨fun held => ?_, h.get?_eq⟩
  obtain same | ⟨-, dir, -⟩ := h.get? place
  · rw [← same, held]
  · cases held.symm.trans dir

/-- What was found on a way is still found on it. -/
theorem way (h : Grown P t u) (way : Way s t follow at_ names place) :
    Way s u follow at_ names place := by
  induction way with
  | here at_ => exact .here at_
  | dot _ ih => exact .dot ih
  | up _ ih => exact .up ih
  | last own short ends => exact .last own short ends
  | into own short more through dir _ ih => exact .into own short more through (h.get?_eq dir) ih

theorem origin_eq (h : Grown P t u) (p : Path) : u.origin p = t.origin p := by
  rw [origin, origin, h.cwd]

end Grown

/-! ## Leading parts of paths -/

/-- The names between slashes. -/
def namesIn (cs : List Char) : List (List Char) := (cs.splitOn '/').filter (!·.isEmpty)

theorem segments_eq (p : Path) : segments p = (namesIn p.toList).map .ofList := rfl

@[simp] theorem namesIn_nil : namesIn [] = [] := by simp [namesIn, List.splitOn]

theorem namesIn_append (front rest : List Char) :
    namesIn (front ++ '/' :: rest) = namesIn front ++ namesIn rest := by
  simp only [namesIn, List.splitOn, ← List.filter_append]
  rw [List.splitOnP_append_cons (p := (· == '/')) _ _ rfl]

@[simp] theorem namesIn_snoc_slash (front : List Char) :
    namesIn (front ++ ['/']) = namesIn front := by
  simp [namesIn_append]

/-- A part of a path that begins where the path does, and holds its first names. -/
structure Leading (whole part : List Char) : Prop where
  names : namesIn part <+: namesIn whole
  absolute : part.head? = some '/' ↔ whole.head? = some '/'

namespace Leading

variable {front rest whole part : List Char}

theorem refl (whole : List Char) : Leading whole whole := ⟨List.prefix_rfl, Iff.rfl⟩

theorem trans (h : Leading whole part) (g : Leading part rest) : Leading whole rest :=
  ⟨g.names.trans h.names, g.absolute.trans h.absolute⟩

theorem upToSlash (front rest : List Char) :
    Leading (front ++ '/' :: rest) (front ++ ['/']) where
  names := by simp [namesIn_append]
  absolute := by cases front <;> simp

theorem withoutSlash (some_ : front ≠ []) : Leading (front ++ ['/']) front where
  names := by simp
  absolute := by rw [List.head?_append_of_ne_nil _ some_]

/-- A path of one name leads nowhere before that name. -/
theorem nil (noSlash : '/' ∉ whole) : Leading whole [] where
  names := by simp
  absolute := iff_of_false (by simp) fun first => noSlash (List.mem_of_head? first)

theorem trimReversed (fuel : Nat) (cs : List Char) :
    Leading cs.reverse (Path.trimReversed fuel cs).reverse := by
  fun_induction Path.trimReversed fuel cs with
  | case1 | case4 => exact .refl _
  | case2 fuel c cs ih =>
    rw [List.reverse_cons]
    exact (withoutSlash (by simp)).trans ih
  | case3 fuel cs ih =>
    have slash := upToSlash cs.reverse ['.']
    simp only [List.reverse_cons, List.append_assoc, List.singleton_append] at ih ⊢
    exact slash.trans ih

theorem splitReversed (cs : List Char) : Leading cs.reverse (Path.splitReversed cs).2 := by
  unfold Path.splitReversed
  refine trans ?_ (trimReversed _ _)
  have parts : cs.reverse =
      (cs.dropWhile (· != '/')).reverse ++ (cs.takeWhile (· != '/')).reverse := by
    rw [← List.reverse_append, List.takeWhile_append_dropWhile]
  cases after : cs.dropWhile (· != '/') with
  | nil =>
    rw [List.reverse_nil]
    refine .nil fun mem => ?_
    have none := List.dropWhile_eq_nil_iff.1 after _ (List.mem_reverse.1 mem)
    simp at none
  | cons c rest =>
    have slash := List.head?_dropWhile_not (· != '/') cs
    rw [after] at slash parts
    obtain rfl : c = '/' := by simpa using slash
    rw [parts, List.reverse_cons, List.append_assoc]
    exact .upToSlash _ _

end Leading

theorem leading_of_parent? (h : p.parent? = some dir) : Leading p.toList dir.toList := by
  have trimmed := Leading.trimReversed p.length p.toList.reverse
  rw [List.reverse_reverse] at trimmed
  unfold Path.parent? Path.significant at h
  split at h
  · cases h
  · cases h
  · cases h
    rw [String.toList_ofList]
    exact trimmed.trans (.splitReversed _)

/-- Slashes at the end make no difference to where a path leads. -/
theorem dropWhile_slash {cs : List Char} (other : ¬ cs.all (· == '/')) :
    namesIn (cs.dropWhile (· == '/')).reverse = namesIn cs.reverse ∧
      (cs.dropWhile (· == '/')).reverse.head? = cs.reverse.head? := by
  induction cs with
  | nil => simp at other
  | cons c cs ih =>
    by_cases slash : c = '/'
    · subst slash
      have rest : ¬ cs.all (· == '/') := by simpa using other
      obtain ⟨names, first⟩ := ih rest
      have some_ : cs.reverse ≠ [] := by
        rintro none
        rw [List.reverse_eq_nil_iff] at none
        simp [none] at rest
      rw [List.dropWhile_cons_of_pos rfl, names, first, List.reverse_cons, namesIn_snoc_slash,
        List.head?_append_of_ne_nil _ some_]
      exact ⟨rfl, rfl⟩
    · rw [List.dropWhile_cons_of_neg (by simpa using slash)]
      exact ⟨rfl, rfl⟩

theorem withoutSlashes_leads (p : Path) :
    segments (withoutSlashes p) = segments p ∧
      (withoutSlashes p).isAbsolute = p.isAbsolute := by
  unfold withoutSlashes
  split
  · exact ⟨rfl, rfl⟩
  · rename_i other
    have other' : ¬ p.toList.reverse.all (· == '/') := by simpa using other
    obtain ⟨names, first⟩ := dropWhile_slash other'
    rw [List.reverse_reverse] at names first
    constructor
    · rw [segments_eq, segments_eq, String.toList_ofList, names]
    · rw [Path.isAbsolute, Path.isAbsolute, String.toList_ofList, first]

/-! ## Making directories -/

/-- A leading part of the path leads to this place. -/
def OnWayIn (s : Storage) (t : Tree) (p : Path) (place : Place) : Prop :=
  ∃ names, names <+: segments p ∧ Way s t true (t.origin p) names place

/-- A leading part of the path leads to this place, where there are no links. -/
abbrev OnWay (t : Tree) (p : Path) (place : Place) : Prop := OnWayIn .plain t p place

theorem OnWayIn.of_parent? (h : p.parent? = some dir) (onWay : OnWayIn s t dir place) :
    OnWayIn s t p place := by
  have leading := leading_of_parent? h
  obtain ⟨names, part, way⟩ := onWay
  have absolute : dir.isAbsolute = p.isAbsolute := by
    rw [Bool.eq_iff_iff, Path.isAbsolute, Path.isAbsolute, beq_iff_eq, beq_iff_eq]
    exact leading.absolute
  refine ⟨names, part.trans ?_, ?_⟩
  · rw [segments_eq, segments_eq]
    exact leading.names.map _
  · rw [origin, ← absolute]
    exact way

theorem Grown.onWay {P : Place → Prop} (h : Grown P t u) (onWay : OnWayIn s t p place) :
    OnWayIn s u p place := by
  obtain ⟨names, part, way⟩ := onWay
  exact ⟨names, part, h.origin_eq p ▸ h.way way⟩

theorem makeDirectory_cases (made : s.makeDirectory t p = .ok u) :
    ∃ place, s.place t false (withoutSlashes p) = .ok place ∧ s.isLink place = false ∧
      t.get? place = none ∧ u = t.put place .dir := by
  unfold Storage.makeDirectory at made
  split at made
  · cases made
  · rename_i place named
    split at made
    · cases made
    · rename_i free
      rw [Bool.not_eq_true, Bool.or_eq_false_iff, Option.isSome_eq_false_iff,
        Option.isNone_iff_eq_none] at free
      exact ⟨place, named, free.1, free.2, (Storage.put_eq_ok_iff.1 made).2⟩

/-- A directory that was made is where its path leads to. -/
theorem grown_of_makeDirectory (made : s.makeDirectory t p = .ok u) :
    Grown (OnWayIn s u p) t u := by
  obtain ⟨place, named, own, free, rfl⟩ := makeDirectory_cases made
  obtain ⟨-, walked⟩ := Storage.place_eq_ok_iff.1 named
  obtain ⟨names, absolute⟩ := withoutSlashes_leads p
  rw [names, origin, absolute] at walked
  have grown := Grown.put (P := fun _ => True) free trivial
  have onWay : OnWayIn s t p place := ⟨_, List.prefix_rfl, (walk_eq_ok_iff.1 walked).followed own⟩
  exact .put free (grown.onWay onWay)

theorem grown_of_makeDirectoriesWithin {fuel : Nat} {res : Except Problem Unit}
    (made : s.makeDirectoriesWithin fuel t p = (res, u)) : Grown (OnWayIn s u p) t u := by
  induction fuel generalizing t u p res with
  | zero =>
    cases made
    exact .refl _ t
  | succ fuel ih =>
    rw [Storage.makeDirectoriesWithin] at made
    split at made
    · cases made
      exact .refl _ t
    split at made
    · rename_i made'
      cases made
      exact grown_of_makeDirectory made'
    · split at made
      · cases made
        exact .refl _ t
      · rename_i dir parent
        split at made
        · rename_i before
          cases made
          exact (ih before).mono fun _ => .of_parent? parent
        · rename_i t' before
          have grown := (ih before).mono fun _ => OnWayIn.of_parent? parent
          split at made
          · rename_i made'
            cases made
            have more := grown_of_makeDirectory made'
            exact (grown.mono fun _ => more.onWay).trans more
          · cases made
            exact grown
    · cases made
      exact .refl _ t

/-- Making directories adds directories on the way of the path, also when it does not succeed. -/
theorem grown_of_makeDirectories {res : Except Problem Unit}
    (made : s.makeDirectories t p = (res, u)) : Grown (OnWayIn s u p) t u :=
  grown_of_makeDirectoriesWithin made

/-! ## Writing files -/

variable {content : Bytes}

/-- Where a file can be read, only a refusal keeps it from being written. -/
theorem write_of_read {old : Bytes} (held : s.read t p = .ok old) (content : Bytes) :
    ∃ place, s.locate t p = .ok (place, some (.file old)) ∧
      s.write t p content = s.put t place (.file content) := by
  unfold Storage.read at held
  split at held
  · cases held
  · cases held
  · cases held
  · rename_i place c located
    cases held
    exact ⟨place, located, by rw [Storage.write, located]⟩

/-- Only the file that was written has changed. -/
theorem get?_of_write (written : s.write t p content = .ok u)
    (changed : u.get? place ≠ t.get? place) :
    s.locate u p = .ok (place, some (.file content)) := by
  obtain ⟨here, located⟩ := Storage.locate_write written
  obtain ⟨target, node, found, leaf, -, rfl⟩ := Storage.write_cases written
  obtain ⟨named, rfl, -⟩ := Storage.locate_eq_ok_iff.1 found
  obtain ⟨named', -⟩ := Storage.locate_eq_ok_iff.1 located
  obtain ⟨-, walked⟩ := Storage.place_eq_ok_iff.1 named
  obtain ⟨-, walked'⟩ := Storage.place_eq_ok_iff.1 named'
  cases (Storage.walk_put (.file content) walked leaf).symm.trans walked'
  have inside : here ≠ [] := by
    rintro rfl
    exact leaf rfl
  obtain rfl : place = here := by
    by_contra other
    exact changed (by rw [get?_put t here place _ inside, if_neg other])
  exact located

theorem cwd_write (written : s.write t p content = .ok u) : u.cwd = t.cwd := by
  obtain ⟨target, node, -, -, -, rfl⟩ := Storage.write_cases written
  rfl

/-- A file that is written stands on no way. -/
theorem Way.write (way : Way s t follow at_ names place) (written : s.write t p content = .ok u) :
    Way s u follow at_ names place := by
  obtain ⟨target, node, found, leaf, -, rfl⟩ := Storage.write_cases written
  obtain ⟨-, rfl, -⟩ := Storage.locate_eq_ok_iff.1 found
  exact walk_eq_ok_iff.1 (Storage.walk_put _ (walk_eq_ok_iff.2 way) leaf)

theorem OnWayIn.write (onWay : OnWayIn s t dir place) (written : s.write t p content = .ok u) :
    OnWayIn s u dir place := by
  obtain ⟨names, part, way⟩ := onWay
  refine ⟨names, part, ?_⟩
  rw [origin, cwd_write written]
  exact way.write written

/-- What has changed after directories were added and a file was written is one of these
directories, or the file. -/
theorem Grown.changed_write {P : Place → Prop} (grown : Grown P t u)
    (written : s.write u p content = .ok v) (changed : v.get? place ≠ t.get? place) :
    (t.get? place = none ∧ v.get? place = some .dir ∧ P place) ∨
      s.locate v p = .ok (place, some (.file content)) := by
  by_cases same : v.get? place = u.get? place
  · rw [same] at changed ⊢
    obtain same | added := grown.get? place
    · exact absurd same changed
    · exact .inl added
  · exact .inr (get?_of_write written same)

end Tree

end UiRunner.Files
