/-
Queries as search strings.

A backslash keeps the next character from having a meaning, quotes enclose an exact value, brackets
a group, and a plus or minus sign marks what follows it.  `Query.toSearchString` writes a query so
that reading the string gives the query back.  Main statements:

* `render_nested_eq` — only a group is written differently inside another query.
-/
import WeightedSearch.Query.Basic

namespace WeightedSearch

/-- The characters that have a meaning everywhere outside quotes. -/
def isStructural (c : Char) : Bool :=
  c == '\\' || c == '"' || c == '(' || c == ')' || isSpace c

/-- Whether the character marks a query when a value could start there. -/
def isMark (c : Char) : Bool :=
  c == '+' || c == '-'

/-- Escapes the characters of a standard value after its first. -/
def escapeInner (s : List Char) : List Char :=
  s.flatMap fun c => if isStructural c then ['\\', c] else [c]

/-- Escapes a standard value: as its first character a mark is escaped too. -/
def escapeStandard : List Char → List Char
  | [] => []
  | c :: r => if isMark c then '\\' :: c :: escapeInner r else escapeInner (c :: r)

/-- Escapes what stands between quotes. -/
def escapePrecise (s : List Char) : List Char :=
  s.flatMap fun c => if c == '\\' || c == '"' then ['\\', c] else [c]

namespace Query

mutual

/-- The characters of a query, with brackets around a group if it is `nested` in another query. -/
def render (nested : Bool) : Query → List Char
  | .nothing => []
  | .value .standard text => escapeStandard text.toList
  | .value .precise text => '"' :: (escapePrecise text.toList ++ ['"'])
  | .group qs => if nested then '(' :: (renderAll qs ++ [')']) else renderAll qs
  | .required q => '+' :: render true q
  | .excluded q => '-' :: render true q

/-- The characters of the members of a group, with a space between each two. -/
def renderAll : List Query → List Char
  | [] => []
  | q :: qs => render true q ++ renderMore qs

/-- The members of a group after its first, each with a space before it. -/
def renderMore : List Query → List Char
  | [] => []
  | q :: qs => ' ' :: (render true q ++ renderMore qs)

end

theorem render_nested_eq (q : Query) :
    render true q = match q with
      | .group _ => '(' :: (render false q ++ [')'])
      | q => render false q := by
  cases q with
  | value m t => cases m <;> simp [render]
  | _ => simp [render]

/-- The search string of a query. -/
def toSearchString (q : Query) : String :=
  String.ofList (q.render false)

end Query

end WeightedSearch
