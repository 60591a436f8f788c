/-!
# Dotted names

Packages, qualified names, property paths and constraint names are runs of segments joined by
dots. `splitDots` cuts a text at every dot and `joinDots` puts one between neighbours. Read
`joinDots_splitDots` first: cutting loses nothing, also where segments are empty.
-/

namespace Metamodel.Text

/-- The runs of characters between the dots of a text, of which there is always at least one. -/
def dotSegments : List Char → List (List Char)
  | [] => [[]]
  | c :: cs =>
    match dotSegments cs with
    | [] => [[c]]
    | run :: runs => if c = '.' then [] :: run :: runs else (c :: run) :: runs

/-- The segments of a dotted text, empty ones included. -/
def splitDots (text : String) : List String :=
  (dotSegments text.toList).map String.ofList

/-- The segments with a dot between each and the next. -/
def joinDots (segments : List String) : String :=
  ".".intercalate segments

/-- Even the empty text has a segment, the empty one. -/
theorem dotSegments_ne_nil (cs : List Char) : dotSegments cs ≠ [] := by
  cases cs with
  | nil => simp [dotSegments]
  | cons c cs =>
    simp only [dotSegments]
    split
    · simp
    · split <;> simp

theorem dotSegments_cons_dot (cs : List Char) :
    dotSegments ('.' :: cs) = [] :: dotSegments cs := by
  cases h : dotSegments cs with
  | nil => exact absurd h (dotSegments_ne_nil cs)
  | cons run runs => simp [dotSegments, h]

/-- Joining the segments again gives the text. -/
theorem intercalate_dotSegments (cs : List Char) :
    ['.'].intercalate (dotSegments cs) = cs := by
  induction cs with
  | nil => simp [dotSegments]
  | cons c cs ih =>
    simp only [dotSegments]
    split
    · rename_i hnil
      exact absurd hnil (dotSegments_ne_nil cs)
    · rename_i run runs hruns
      rw [hruns] at ih
      split
      · rename_i hc
        subst hc
        simp [List.intercalate_cons_cons, ih]
      · cases runs with
        | nil => simp_all
        | cons next runs =>
          simp only [List.intercalate_cons_cons] at ih ⊢
          simp [← ih]

/-- A text is its segments joined by dots. -/
theorem joinDots_splitDots (text : String) : joinDots (splitDots text) = text := by
  apply String.toList_injective
  rw [joinDots, String.toList_intercalate, splitDots, List.map_map]
  have hid : String.toList ∘ String.ofList = id := by funext cs; simp
  rw [hid, List.map_id]
  simpa using intercalate_dotSegments text.toList

end Metamodel.Text
