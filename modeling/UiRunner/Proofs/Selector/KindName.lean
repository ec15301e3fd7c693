import Mathlib.Data.List.Forall2
import UiRunner.Selector.Basic

/-!
# Names of selector kinds

A text is read as the kind of which it spells a name. Blanks around it do not count, letters may be
small or capital, and a dash of the name may be an underscore or a space. Only the letters of ASCII
have two cases here, so a letter that merely looks like one of them spells nothing.
-/
namespace UiRunner.Selector

namespace Kind

/-- What may stand where a name has a dash. -/
def IsSeparator (c : Char) : Prop := c = '-' ∨ c = '_' ∨ c = ' '

/-- The same character, an ASCII letter in its other case, or two separators. -/
def Alike (c c' : Char) : Prop := c.toLower = c'.toLower ∨ IsSeparator c ∧ IsSeparator c'

/-- A text is a name, but for the case of its letters and the choice of its separators. -/
def Spells (name : String) (text : List Char) : Prop := List.Forall₂ Alike name.toList text

/-- Without the blanks around it, the text spells a name of the kind. -/
def IsNamedBy (k : Kind) (s : String) : Prop :=
  ∃ name ∈ k.names, Spells name (Text.trimChars s.toList)

/-- Two texts differ only in the case of letters, in separators and in the blanks around them. -/
def Respelled (s s' : String) : Prop :=
  List.Forall₂ Alike (Text.trimChars s.toList) (Text.trimChars s'.toList)

/-! ## Characters -/

variable {c c' : Char} {cs cs' : List Char} {k k' : Kind} {s s' name : String}

/-- How a character is compared. -/
def folded (c : Char) : Char := dashed c.toLower

theorem toNat_toLower (c : Char) : c.toLower.toNat =
    if 65 ≤ c.toNat ∧ c.toNat ≤ 90 then c.toNat + 32 else c.toNat := by
  unfold Char.toLower
  split
  · rename_i capital
    have least : 65 ≤ c.val.toNat := capital.1
    have greatest : c.val.toNat ≤ 90 := capital.2
    rw [if_pos ⟨least, greatest⟩]
    change (c.val + 32).toNat = c.val.toNat + 32
    have small : c.val.toNat + 32 < 4294967296 := by omega
    rw [UInt32.toNat_add]
    exact Nat.mod_eq_of_lt small
  · rename_i other
    rw [if_neg fun capital => other ⟨capital.1, capital.2⟩]

theorem isSeparator_iff : IsSeparator c ↔ c.toNat = 45 ∨ c.toNat = 95 ∨ c.toNat = 32 := by
  simp only [IsSeparator, ← Char.toNat_inj]
  rfl

/-- Capital letters become letters, so nothing else becomes a separator. -/
theorem isSeparator_toLower_iff : IsSeparator c.toLower ↔ IsSeparator c := by
  rw [isSeparator_iff, isSeparator_iff, toNat_toLower]
  split <;> omega

theorem folded_of_isSeparator (h : IsSeparator c) : folded c = '-' := by
  obtain rfl | rfl | rfl := h <;> decide

theorem folded_of_not_isSeparator (h : ¬ IsSeparator c) : folded c = c.toLower := by
  have other : ¬ IsSeparator c.toLower := isSeparator_toLower_iff.not.2 h
  simp only [IsSeparator, not_or] at other
  simp [folded, dashed, other]

theorem folded_eq_dash_iff : folded c = '-' ↔ IsSeparator c := by
  refine ⟨fun dash => ?_, folded_of_isSeparator⟩
  by_contra other
  rw [folded_of_not_isSeparator other] at dash
  exact other (isSeparator_toLower_iff.1 (.inl dash))

theorem alike_iff : Alike c c' ↔ folded c = folded c' := by
  constructor
  · rintro (same | ⟨sep, sep'⟩)
    · rw [folded, folded, same]
    · rw [folded_of_isSeparator sep, folded_of_isSeparator sep']
  · intro same
    by_cases sep : IsSeparator c
    · exact .inr ⟨sep, folded_eq_dash_iff.1 (same ▸ folded_of_isSeparator sep)⟩
    · have sep' : ¬ IsSeparator c' := by rwa [← folded_eq_dash_iff, ← same, folded_eq_dash_iff]
      rw [folded_of_not_isSeparator sep, folded_of_not_isSeparator sep'] at same
      exact .inl same

/-- Texts are alike, character by character, when they are folded into one. -/
theorem forall₂_alike_iff : List.Forall₂ Alike cs cs' ↔ cs.map folded = cs'.map folded := by
  have compared : Alike = fun c c' => folded c = folded c' := by
    ext c c'
    exact alike_iff
  rw [compared, ← List.forall₂_eq_eq_eq, List.forall₂_map_left_iff, List.forall₂_map_right_iff]

/-! ## Names -/

theorem normalize_eq (s : String) :
    normalize s = .ofList ((Text.trimChars s.toList).map folded) := rfl

/-- Names are listed in small letters and with dashes. -/
theorem map_folded_of_mem_names (h : name ∈ k.names) : name.toList.map folded = name.toList := by
  have listed : ∀ name ∈ k.names, name.toList.map folded = name.toList := by
    cases k <;> decide +kernel
  exact listed name h

theorem isNamedBy_iff : k.IsNamedBy s ↔ normalize s ∈ k.names := by
  rw [normalize_eq]
  constructor
  · rintro ⟨name, listed, spelled⟩
    rw [← forall₂_alike_iff.1 spelled, map_folded_of_mem_names listed, String.ofList_toList]
    exact listed
  · intro listed
    refine ⟨_, listed, forall₂_alike_iff.2 ?_⟩
    rw [map_folded_of_mem_names listed, String.toList_ofList]

theorem IsNamedBy.unique (h : k.IsNamedBy s) (h' : k'.IsNamedBy s) : k = k' :=
  names_disjoint (isNamedBy_iff.1 h) (isNamedBy_iff.1 h')

theorem isNamedBy_of_ofName? (found : ofName? s = some k) : k.IsNamedBy s := by
  have listed := List.find?_some (p := fun k : Kind => decide (normalize s ∈ k.names)) found
  exact isNamedBy_iff.2 (of_decide_eq_true listed)

theorem ofName?_eq_some_iff : ofName? s = some k ↔ k.IsNamedBy s := by
  refine ⟨isNamedBy_of_ofName?, fun named => ?_⟩
  cases found : ofName? s with
  | none =>
    have unlisted := List.find?_eq_none.1 found k (mem_all k)
    exact absurd (isNamedBy_iff.1 named) (by simpa using unlisted)
  | some k' => rw [(isNamedBy_of_ofName? found).unique named]

theorem ofName?_eq_none_iff : ofName? s = none ↔ ∀ k, ¬ IsNamedBy k s := by
  simp only [Option.eq_none_iff_forall_ne_some, ne_eq, ofName?_eq_some_iff]

theorem Respelled.isNamedBy_iff (h : Respelled s s') : k.IsNamedBy s ↔ k.IsNamedBy s' := by
  rw [Kind.isNamedBy_iff, Kind.isNamedBy_iff, normalize_eq, normalize_eq, forall₂_alike_iff.1 h]

theorem Respelled.ofName?_eq (h : Respelled s s') : ofName? s = ofName? s' := by
  ext k
  rw [ofName?_eq_some_iff, ofName?_eq_some_iff, h.isNamedBy_iff]

end Kind

/-! ## Selectors -/

theorem parse_eq_ok_iff {s value : String} {k : Kind} :
    parse s value = .ok ⟨k, value⟩ ↔ k.IsNamedBy s := by
  rw [← Kind.ofName?_eq_some_iff, parse]
  cases Kind.ofName? s <;> simp

theorem parse_eq_error_iff {s value : String} {e : Error} :
    parse s value = .error e ↔ (∀ k, ¬ Kind.IsNamedBy k s) ∧ e = .invalidSelectorKind s := by
  rw [← Kind.ofName?_eq_none_iff, parse]
  cases Kind.ofName? s <;> simp [eq_comm]

theorem resolve_cases (x : Selector) :
    (∃ q, x.resolve = .ok q) ∨ ∃ m, x.resolve = .error (.invalidSelector m) := by
  rw [resolve]
  split
  · exact .inr ⟨_, rfl⟩
  · exact .inl ⟨_, rfl⟩

/-- **Kinds are read from the spellings of their names and from nothing else.** No text spells names
of two kinds, and a text that spells none is reported as it was given. Two texts that differ only in
the case of letters, in separators and in the blanks around them are both refused, or make the same
selector with any value, and so the same query or the same error. -/
theorem spelling_decides_kind (s : String) :
    (∀ k, Kind.ofName? s = some k ↔ k.IsNamedBy s) ∧
    (∀ k k' : Kind, k.IsNamedBy s → k'.IsNamedBy s → k = k') ∧
    (∀ value, (∀ k, parse s value = .ok ⟨k, value⟩ ↔ k.IsNamedBy s) ∧
      ∀ e, parse s value = .error e ↔
        (∀ k, ¬ Kind.IsNamedBy k s) ∧ e = .invalidSelectorKind s) ∧
    ∀ s', Kind.Respelled s s' → ∀ value,
      parse s value = .error (.invalidSelectorKind s) ∧
        parse s' value = .error (.invalidSelectorKind s') ∨
      ∃ x : Selector, parse s value = .ok x ∧ parse s' value = .ok x ∧
        ((∃ q, x.resolve = .ok q) ∨ ∃ m, x.resolve = .error (.invalidSelector m)) := by
  refine ⟨fun k => Kind.ofName?_eq_some_iff, fun k k' => Kind.IsNamedBy.unique, fun value =>
    ⟨fun k => parse_eq_ok_iff, fun e => parse_eq_error_iff⟩, fun s' respelled value => ?_⟩
  have same := respelled.ofName?_eq
  cases found : Kind.ofName? s with
  | none =>
    rw [found] at same
    exact .inl ⟨by rw [parse, found], by rw [parse, ← same]⟩
  | some k =>
    rw [found] at same
    exact .inr ⟨⟨k, value⟩, by rw [parse, found], by rw [parse, ← same], resolve_cases _⟩

/-- The first dash of a name may be written otherwise, but a space there is a blank around the rest,
which is a name too. Dashes are not doubled, and a Cyrillic letter is no Latin one. -/
example : Kind.ofName? "_Android UIAUTOMATOR\n" = some .platformQuery ∧
    Kind.ofName? " android-uiautomator" = some .platformQuery ∧
    Kind.ofName? "class--name" = none ∧ Kind.ofName? "\u0456d" = none := by
  decide +kernel

end UiRunner.Selector
