import Ferrixd.Text

/-! # Glob masks -/

namespace Ferrixd

def maskEqCi (a b : Char) : Bool :=
  a.toLower == b.toLower

/-- How much text the matching loop can still go back over. -/
def maskHorizon (text : List Char) : Option (List Char × List Char) → Nat
  | some (_, swallowed) => max swallowed.length text.length
  | none => text.length

/-- The matching loop: what is left of pattern and text and, once a `*` was met, the
pattern after it with the text it has not swallowed yet. -/
def maskLoop (pattern text : List Char) (star : Option (List Char × List Char)) : Bool :=
  match text with
  | [] => pattern.all fun p => p == '*'
  | t :: textRest =>
    -- let the last `*` swallow one more character
    let backtrack := match star with
      | some (after, _ :: swallowed) => maskLoop after swallowed (some (after, swallowed))
      | _ => false
    match pattern with
    | [] => backtrack
    | p :: patternRest =>
      if p == '?' || maskEqCi p t then maskLoop patternRest textRest star
      else if p == '*' then maskLoop patternRest (t :: textRest) (some (patternRest, t :: textRest))
      else backtrack
termination_by (maskHorizon text star, pattern.length)
decreasing_by
  all_goals
    first
    | (simp only [maskHorizon, List.length_cons, Prod.lex_def]; omega)
    | (cases star <;> simp only [maskHorizon, List.length_cons, Prod.lex_def] <;> omega)

/-- Match a text against a glob pattern, ASCII-case-insensitively. -/
def maskMatches (pattern text : String) : Bool :=
  maskLoop pattern.toList text.toList none

end Ferrixd
