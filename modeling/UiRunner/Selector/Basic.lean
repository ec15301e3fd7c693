import UiRunner.Error
import UiRunner.Selector.XPath
import UiRunner.Text.Blank

/-!
# Selectors

A step describes an element by a kind and a value. `Kind.ofName?` reads the names of kinds, and
`Selector.resolve` turns a selector into the query that an automation server understands.
-/
namespace UiRunner

namespace Selector

inductive Kind where
  | accessibilityId
  | resourceId
  | xpathExpression
  | className
  | visibleText
  | platformQuery
deriving DecidableEq, Repr

namespace Kind

/-- In the order in which they are listed to users. -/
def all : List Kind :=
  [.accessibilityId, .resourceId, .xpathExpression, .className, .visibleText, .platformQuery]

def name : Kind → String
  | .accessibilityId => "accessibility-id"
  | .resourceId => "resource-id"
  | .xpathExpression => "xpath-expression"
  | .className => "class-name"
  | .visibleText => "visible-text"
  | .platformQuery => "platform-specific-query"

/-- The names a kind may be written by, in small letters and with dashes. -/
def names : Kind → List String
  | .accessibilityId => ["accessibility-id"]
  | .resourceId => ["resource-id", "id"]
  | .xpathExpression => ["xpath-expression", "xpath"]
  | .className => ["class-name", "class"]
  | .visibleText => ["visible-text", "text"]
  | .platformQuery => ["platform-specific-query", "android-uiautomator", "-android-uiautomator"]

/-- Underscores and blanks between words count as dashes. -/
def dashed (c : Char) : Char := if c == '_' || c == ' ' then '-' else c

/-- Small letters and dashes, without blanks at the ends. -/
def normalize (s : String) : String :=
  .ofList ((Text.trimChars s.toList).map fun c => dashed c.toLower)

def ofName? (s : String) : Option Kind :=
  all.find? fun k => normalize s ∈ k.names

/-- Whether an empty value can be looked for. -/
def toleratesEmpty (k : Kind) : Bool := k == .visibleText

theorem mem_all (k : Kind) : k ∈ all := by cases k <;> decide

/-- A name belongs to one kind only. -/
theorem names_disjoint {k k' : Kind} {s : String} (h : s ∈ k.names) (h' : s ∈ k'.names) :
    k = k' := by
  cases k <;> cases k' <;> simp_all [names] <;> rcases h with rfl | rfl | rfl <;> simp_all

end Kind

end Selector

structure Selector where
  kind : Selector.Kind
  value : String
deriving DecidableEq, Repr

/-- What is asked of the server: a location strategy and a text for it. -/
structure Query where
  strategy : String
  value : String
deriving DecidableEq, Repr

namespace Selector

def parse (kind value : String) : Except Error Selector :=
  match Kind.ofName? kind with
  | some k => .ok ⟨k, value⟩
  | none => .error (.invalidSelectorKind kind)

/-- The selector as messages show it. -/
def text (s : Selector) : String := s.kind.name ++ "='" ++ s.value ++ "'"

def query (s : Selector) : Query :=
  match s.kind with
  | .accessibilityId => ⟨"accessibility id", s.value⟩
  | .resourceId => ⟨"id", s.value⟩
  | .xpathExpression => ⟨"xpath", s.value⟩
  | .className => ⟨"class name", s.value⟩
  | .visibleText => ⟨"xpath", "//*[@text=" ++ XPath.literal s.value ++ "]"⟩
  | .platformQuery => ⟨"-android uiautomator", s.value⟩

def resolve (s : Selector) : Except Error Query :=
  if s.value.isEmpty && !s.kind.toleratesEmpty then
    .error (.invalidSelector (s.kind.name ++ " selector needs a non-empty value"))
  else .ok s.query

end Selector

end UiRunner
