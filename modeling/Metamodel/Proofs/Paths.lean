import Mathlib.Data.List.Chain
import Metamodel.Proofs.Kinds

/-!
# Paths

A query goes along a dotted path from type to type: each segment names a property of the type that
is reached, and each but the last has to link to the type that has the next. `Graph.Way` says along
which properties one can go, and `Graph.Blocks` what stops a path. Neither looks anything up. Names
are identifiers and hold no dots, so a way and the text of its names determine each other: paths are
answered exactly along ways and refused exactly where they are blocked, and a path in two parts goes
on from where its first part ends. Read `Graph.AnswersPaths` first; `Reachable.answersPaths` says so
of every registered type.
-/

namespace Metamodel

/-! ### Texts of paths -/

namespace Text

/-- The runs between dots are those of the library. -/
theorem dotSegments_eq_splitOn (cs : List Char) : dotSegments cs = cs.splitOn '.' := by
  induction cs with
  | nil => rfl
  | cons c cs ih =>
    rw [dotSegments, List.splitOn, List.splitOnP_cons_eq_if_modifyHead, ← List.splitOn, ← ih]
    cases hruns : dotSegments cs with
    | nil => exact absurd hruns (dotSegments_ne_nil cs)
    | cons run runs => simp

/-- There is always a segment, if only the empty one. -/
theorem splitDots_ne_nil (text : String) : splitDots text ≠ [] := by
  simp [splitDots, dotSegments_ne_nil]

/-- Segments without dots come back when they are joined and the text is cut again. -/
theorem splitDots_joinDots {segments : List String} (hne : segments ≠ [])
    (hdots : ∀ segment ∈ segments, '.' ∉ segment.toList) :
    splitDots (joinDots segments) = segments := by
  have hruns : dotSegments (joinDots segments).toList = segments.map String.toList := by
    rw [joinDots, String.toList_intercalate, dotSegments_eq_splitOn]
    refine List.splitOn_intercalate '.' ?_ (by simpa using hne)
    simpa using hdots
  have hid : String.ofList ∘ String.toList = id := by funext text; simp
  rw [splitDots, hruns, List.map_map, hid, List.map_id]

theorem dotSegments_append (first second : List Char) :
    dotSegments (first ++ '.' :: second) = dotSegments first ++ dotSegments second := by
  induction first with
  | nil => exact dotSegments_cons_dot second
  | cons c first ih =>
    rw [List.cons_append, dotSegments, dotSegments, ih]
    cases hruns : dotSegments first with
    | nil => exact absurd hruns (dotSegments_ne_nil first)
    | cons run runs =>
      simp only [List.cons_append]
      split <;> rfl

/-- Two texts with a dot between them have the segments of the first and then those of the
second. -/
theorem splitDots_append (first second : String) :
    splitDots (first ++ "." ++ second) = splitDots first ++ splitDots second := by
  have htext : (first ++ "." ++ second).toList = first.toList ++ '.' :: second.toList := by simp
  rw [splitDots, htext, dotSegments_append, List.map_append, splitDots, splitDots]

end Text

namespace Graph

/-! ### Ways -/

/-- Among the properties of a type, its own and those it inherits, one has a name. -/
def Offers (graph : Graph) (owner : TypeKey) (name : String) (key : PropKey) : Prop :=
  key ∈ graph.mergedProps owner ∧ ∃ prop, graph.prop? key = some prop ∧ prop.name = name

/-- From a type on one can go along the properties at some keys: the first is one of the type's,
and each after it is one of those of the type that the property before it links to. -/
structure Way (graph : Graph) (owner : TypeKey) (keys : List PropKey) : Prop where
  ne_nil : keys ≠ []
  first : ∀ key ∈ keys.head?, key ∈ graph.mergedProps owner
  next : keys.IsChain fun key next =>
    ∃ target, graph.target? key = some target ∧ next ∈ graph.mergedProps target

/-- From a type on, names lead to another type: each is that of a property that links to the type
which has the next. -/
inductive Arrives (graph : Graph) : TypeKey → List String → TypeKey → Prop where
  | here {owner : TypeKey} : Arrives graph owner [] owner
  | onward {owner target last : TypeKey} {name : String} {key : PropKey} {names : List String} :
    graph.Offers owner name key →
    graph.target? key = some target →
    Arrives graph target names last →
    Arrives graph owner (name :: names) last

/-- At a type a path cannot go on with a segment, of which `rest` is what follows: the type has no
property of that name, and is blamed as a whole, or has one that links to no type although the path
goes on, and then this member is blamed. -/
structure Blocks (graph : Graph) (owner : TypeNode) (path segment : String) (rest : List String)
    (violation : Violation) : Prop where
  unknown : (∀ key, ¬ graph.Offers owner.key segment key) →
    violation = .ofType owner.qualifiedName (.unknownSegment path segment)
  impassable : ∀ key, graph.Offers owner.key segment key →
    rest ≠ [] ∧ graph.target? key = none ∧
      violation = .ofMember owner.qualifiedName segment (.impassableSegment path segment)

/-- The name of the property at a key. -/
def propName (graph : Graph) (key : PropKey) : String :=
  (graph.label key).name

/-- How paths from a type are answered. -/
structure AnswersPaths (graph : Graph) (type : TypeNode) : Prop where
  /-- The answer is the way whose names, joined by dots, are the path. -/
  ok_iff : ∀ path keys, graph.propPath type.key path = .ok keys ↔
    graph.Way type.key keys ∧ Text.joinDots (keys.map graph.propName) = path
  /-- Without such a way it is a missing reference at the first segment that blocks the path. -/
  blocked : ∀ path,
    (¬ ∃ keys, graph.Way type.key keys ∧ Text.joinDots (keys.map graph.propName) = path) →
    ∃ violation before segment rest, ∃ owner ∈ graph.types,
      graph.propPath type.key path = .error violation ∧
      violation.diagnostic.cls = .reference ∧
      Text.splitDots path = before ++ segment :: rest ∧
      graph.Arrives type.key before owner.key ∧
      graph.Blocks owner path segment rest violation
  /-- A path in two parts goes on from the type that the end of its first part links to. -/
  append_iff : ∀ first second keys,
    graph.propPath type.key (first ++ "." ++ second) = .ok keys ↔
      ∃ before last target after, graph.propPath type.key first = .ok before ∧
        before.getLast? = some last ∧ graph.target? last = some target ∧
        graph.propPath target second = .ok after ∧ keys = before ++ after

variable {source : Source} {config : Config} {graph : Graph} {owner : TypeKey} {key : PropKey}
  {keys : List PropKey} {path segment : String} {segments : List String} {violation : Violation}

theorem way_singleton : graph.Way owner [key] ↔ key ∈ graph.mergedProps owner :=
  ⟨fun h => h.first key rfl, fun h => ⟨by simp, by simpa using h, .singleton key⟩⟩

/-- A way goes on along a way from the type that its first property links to. -/
theorem way_cons_cons {next : PropKey} :
    graph.Way owner (key :: next :: keys) ↔
      key ∈ graph.mergedProps owner ∧
        ∃ target, graph.target? key = some target ∧ graph.Way target (next :: keys) := by
  constructor
  · intro h
    obtain ⟨⟨target, htarget, hnext⟩, hrest⟩ := List.isChain_cons_cons.1 h.next
    exact ⟨h.first key rfl, target, htarget, by simp, by simpa using hnext, hrest⟩
  · rintro ⟨hkey, target, htarget, hrest⟩
    refine ⟨by simp, by simpa using hkey, List.isChain_cons_cons.2 ⟨?_, hrest.next⟩⟩
    exact ⟨target, htarget, hrest.first next rfl⟩

/-- A way in two parts goes on from the type that the end of its first part links to. -/
theorem way_append {before after : List PropKey} (hbefore : before ≠ []) (hafter : after ≠ []) :
    graph.Way owner (before ++ after) ↔
      graph.Way owner before ∧ ∃ last target, before.getLast? = some last ∧
        graph.target? last = some target ∧ graph.Way target after := by
  constructor
  · intro h
    obtain ⟨hfirst, hsecond, hjoint⟩ := List.isChain_append.1 h.next
    obtain ⟨next, hnext⟩ := Option.isSome_iff_exists.1 (List.isSome_head?.2 hafter)
    have hlast := List.getLast?_eq_some_getLast hbefore
    obtain ⟨target, htarget, hmem⟩ := hjoint _ hlast next hnext
    refine ⟨⟨hbefore, ?_, hfirst⟩, _, target, hlast, htarget, hafter, ?_, hsecond⟩
    · intro key hkey
      exact h.first key (List.mem_head?_append_of_mem_head? hkey)
    · intro key hkey
      obtain rfl := Option.some.inj (hnext.symm.trans hkey)
      exact hmem
  · rintro ⟨hfirst, last, target, hlast, htarget, hsecond⟩
    refine ⟨by simp [hbefore], ?_, List.isChain_append.2 ⟨hfirst.next, hsecond.next, ?_⟩⟩
    · rw [List.head?_append_of_ne_nil _ hbefore]
      exact hfirst.first
    · intro key hkey next hnext
      obtain rfl := Option.some.inj (hlast.symm.trans hkey)
      exact ⟨target, htarget, hsecond.first next hnext⟩

/-- Everything on a way is a property of some type. -/
theorem Way.exists_owner (h : graph.Way owner keys) (hkey : key ∈ keys) :
    ∃ owner, key ∈ graph.mergedProps owner := by
  induction keys generalizing owner with
  | nil => cases hkey
  | cons first rest ih =>
    rcases List.mem_cons.1 hkey with rfl | hkey
    · exact ⟨owner, h.first key rfl⟩
    · cases rest with
      | nil => cases hkey
      | cons next rest =>
        obtain ⟨-, target, -, hrest⟩ := way_cons_cons.1 h
        exact ih hrest hkey

/-! ### What is found -/

/-- Only registered types have properties. -/
theorem Realizes.exists_of_mem_mergedProps (h : graph.Realizes source config)
    (hkey : key ∈ graph.mergedProps owner) : ∃ type ∈ graph.types, type.key = owner := by
  cases howner : graph.type? owner with
  | none => simp [mergedProps, howner] at hkey
  | some type => exact ⟨type, List.mem_of_getElem? howner, h.key howner⟩

/-- A type offers its properties under their names. -/
theorem Realizes.offers_propName (h : graph.Realizes source config)
    (hkey : key ∈ graph.mergedProps owner) : graph.Offers owner (graph.propName key) key := by
  obtain ⟨type, htype, rfl⟩ := h.exists_of_mem_mergedProps hkey
  obtain ⟨lineage, -, hplaces⟩ := h.placed type htype
  obtain ⟨prop, hprop⟩ := hplaces.exists_of_view (.inl hkey)
  exact ⟨hkey, prop, hprop, (name_label hprop).symm⟩

/-- What a type offers under a name has that name. -/
theorem Offers.propName_eq {name : String} (h : graph.Offers owner name key) :
    graph.propName key = name := by
  obtain ⟨-, prop, hprop, rfl⟩ := h
  exact name_label hprop

/-- What is found under a name is what the type offers under it. -/
theorem Realizes.findProp?_eq_some_iff (h : graph.Realizes source config) {name : String} :
    graph.findProp? owner name = some key ↔ graph.Offers owner name key := by
  constructor
  · exact findProp?_eq_some
  · rintro ⟨hmem, prop, hprop, rfl⟩
    obtain ⟨type, htype, rfl⟩ := h.exists_of_mem_mergedProps hmem
    obtain ⟨lineage, hlineage, hplaces⟩ := h.placed type htype
    exact findProp?_eq_of_nodup (hplaces.names_nodup hlineage) hmem hprop

/-- There is no dot in what a type offers. -/
theorem Realizes.dot_not_mem_propName (h : graph.Realizes source config)
    (hkey : key ∈ graph.mergedProps owner) : '.' ∉ (graph.propName key).toList := by
  obtain ⟨-, prop, hprop, hname⟩ := h.offers_propName hkey
  rw [← hname]
  exact h.dot_not_mem_name (List.mem_of_getElem? hprop)

/-! ### Answers -/

/-- The last segment of a path leads to a property of its name. -/
theorem walkPath_singleton_eq_ok_iff :
    graph.walkPath path owner [segment] = .ok keys ↔
      ∃ key, graph.findProp? owner segment = some key ∧ keys = [key] := by
  rw [walkPath]
  cases graph.findProp? owner segment <;> simp [eq_comm]

/-- Any other segment leads to a property from which the rest goes on. -/
theorem walkPath_cons_cons_eq_ok_iff {next : String} :
    graph.walkPath path owner (segment :: next :: segments) = .ok keys ↔
      ∃ key target rest, graph.findProp? owner segment = some key ∧
        graph.target? key = some target ∧
        graph.walkPath path target (next :: segments) = .ok rest ∧ keys = key :: rest := by
  rw [walkPath]
  cases graph.findProp? owner segment with
  | none => simp
  | some key =>
    simp only [reduceCtorEq, ↓reduceIte, Option.some.injEq, exists_and_left, exists_eq_left']
    cases graph.target? key with
    | none => simp
    | some target =>
      simp only [Option.some.injEq, exists_eq_left', Except.map_eq_ok_iff]
      exact exists_congr fun _ => and_congr_right fun _ => eq_comm

/-- A segment stops a path where nothing is found, where the path cannot go on from what is found,
or further on. -/
theorem walkPath_cons_eq_error_iff :
    graph.walkPath path owner (segment :: segments) = .error violation ↔
      graph.findProp? owner segment = none ∧
          violation = .ofType (graph.typeName owner) (.unknownSegment path segment) ∨
        ∃ key, graph.findProp? owner segment = some key ∧ segments ≠ [] ∧
          (graph.target? key = none ∧
              violation = .ofMember (graph.typeName owner) segment
                (.impassableSegment path segment) ∨
            ∃ target, graph.target? key = some target ∧
              graph.walkPath path target segments = .error violation) := by
  rw [walkPath]
  cases graph.findProp? owner segment with
  | none => simp [eq_comm]
  | some key =>
    by_cases hlast : segments = []
    · simp [hlast]
    · simp only [hlast, ↓reduceIte, reduceCtorEq, false_and, false_or, Option.some.injEq,
        exists_eq_left', ne_eq, not_false_eq_true, true_and]
      cases graph.target? key with
      | none => simp [eq_comm]
      | some target => simp [Except.map_eq_error_iff]

/-- Segments are answered by the way that has their names. -/
theorem Realizes.walkPath_eq_ok_iff (h : graph.Realizes source config) (hne : segments ≠ []) :
    graph.walkPath path owner segments = .ok keys ↔
      graph.Way owner keys ∧ keys.map graph.propName = segments := by
  -- the last segment needs no target, so a single one is not a case of two or more
  induction segments generalizing owner keys with
  | nil => exact absurd rfl hne
  | cons segment rest ih =>
    cases rest with
    | nil =>
      simp only [walkPath_singleton_eq_ok_iff, h.findProp?_eq_some_iff]
      constructor
      · rintro ⟨key, hoffers, rfl⟩
        exact ⟨way_singleton.2 hoffers.1, by simp [hoffers.propName_eq]⟩
      · rintro ⟨hway, hnames⟩
        obtain ⟨key, rfl, rfl⟩ := List.map_eq_singleton_iff.1 hnames
        exact ⟨key, h.offers_propName (way_singleton.1 hway), rfl⟩
    | cons next rest =>
      simp only [walkPath_cons_cons_eq_ok_iff, h.findProp?_eq_some_iff]
      constructor
      · rintro ⟨key, target, others, hoffers, htarget, hwalk, rfl⟩
        obtain ⟨hway, hnames⟩ := (ih (by simp)).1 hwalk
        obtain ⟨other, others, rfl, -⟩ := List.map_eq_cons_iff.1 hnames
        refine ⟨way_cons_cons.2 ⟨hoffers.1, target, htarget, hway⟩, ?_⟩
        rw [List.map_cons, hoffers.propName_eq, hnames]
      · rintro ⟨hway, hnames⟩
        obtain ⟨key, others, rfl, rfl, hothers⟩ := List.map_eq_cons_iff.1 hnames
        obtain ⟨other, others, rfl, -⟩ := List.map_eq_cons_iff.1 hothers
        obtain ⟨hkey, target, htarget, hrest⟩ := way_cons_cons.1 hway
        exact ⟨key, target, _, h.offers_propName hkey, htarget,
          (ih (by simp)).2 ⟨hrest, hothers⟩, rfl⟩

/-- A path is answered by the way that has the names of its segments. -/
theorem Realizes.propPath_eq_ok_iff (h : graph.Realizes source config) :
    graph.propPath owner path = .ok keys ↔
      graph.Way owner keys ∧ keys.map graph.propName = Text.splitDots path :=
  h.walkPath_eq_ok_iff (Text.splitDots_ne_nil path)

/-- The names along a way are the segments of a path exactly when they give its text. -/
theorem Realizes.map_propName_eq_iff (h : graph.Realizes source config)
    (hway : graph.Way owner keys) :
    keys.map graph.propName = Text.splitDots path ↔
      Text.joinDots (keys.map graph.propName) = path := by
  constructor
  · intro hnames
    rw [hnames, Text.joinDots_splitDots]
  · rintro rfl
    refine (Text.splitDots_joinDots (by simpa using hway.ne_nil) ?_).symm
    intro name hname
    obtain ⟨key, hkey, rfl⟩ := List.mem_map.1 hname
    obtain ⟨owner, hmem⟩ := hway.exists_owner hkey
    exact h.dot_not_mem_propName hmem

/-- A path in two parts is answered by the answers to its parts. -/
theorem Realizes.propPath_append (h : graph.Realizes source config) (first second : String) :
    graph.propPath owner (first ++ "." ++ second) = .ok keys ↔
      ∃ before last target after, graph.propPath owner first = .ok before ∧
        before.getLast? = some last ∧ graph.target? last = some target ∧
        graph.propPath target second = .ok after ∧ keys = before ++ after := by
  simp only [h.propPath_eq_ok_iff, Text.splitDots_append, List.map_eq_append_iff]
  constructor
  · rintro ⟨hway, before, after, rfl, hbefore, hafter⟩
    have hne : before ≠ [] := by
      rintro rfl
      exact Text.splitDots_ne_nil first hbefore.symm
    have hne' : after ≠ [] := by
      rintro rfl
      exact Text.splitDots_ne_nil second hafter.symm
    obtain ⟨hfirst, last, target, hlast, htarget, hsecond⟩ := (way_append hne hne').1 hway
    exact ⟨before, last, target, after, ⟨hfirst, hbefore⟩, hlast, htarget, ⟨hsecond, hafter⟩, rfl⟩
  · rintro ⟨before, last, target, after, ⟨hfirst, hbefore⟩, hlast, htarget, ⟨hsecond, hafter⟩, rfl⟩
    have hway : graph.Way owner (before ++ after) :=
      (way_append hfirst.ne_nil hsecond.ne_nil).2 ⟨hfirst, last, target, hlast, htarget, hsecond⟩
    exact ⟨hway, before, after, rfl, hbefore, hafter⟩

end Graph

/-! ### Refusals -/

namespace Registry.Sound

variable {source : Source} {config : Config} {registry : Registry} {key : PropKey}
  {path : String} {segments : List String} {violation : Violation}

/-- What a property links to is registered. -/
theorem exists_target (h : registry.Sound source config) {target : TypeKey}
    (htarget : registry.graph.target? key = some target) :
    ∃ type ∈ registry.graph.types, type.key = target := by
  obtain ⟨prop, hprop, hlinks⟩ := Option.bind_eq_some_iff.1 htarget
  obtain ⟨type, htype⟩ := (h.covers prop (List.mem_of_getElem? hprop)).target target hlinks
  exact ⟨type, List.mem_of_getElem? htype, h.realizes.key htype⟩

/-- A path that is refused is blocked at the type to which its first segments lead. -/
theorem exists_blocks (h : registry.Sound source config) {type : TypeNode}
    (htype : type ∈ registry.graph.types)
    (hwalk : registry.graph.walkPath path type.key segments = .error violation) :
    ∃ before segment rest, ∃ owner ∈ registry.graph.types,
      segments = before ++ segment :: rest ∧
      registry.graph.Arrives type.key before owner.key ∧
      registry.graph.Blocks owner path segment rest violation := by
  induction segments generalizing type with
  | nil => cases hwalk
  | cons segment rest ih =>
    have hname : registry.graph.typeName type.key = type.qualifiedName := by
      simp [Graph.typeName, h.type?_key type htype]
    rw [Graph.walkPath_cons_eq_error_iff, hname] at hwalk
    -- nothing has the name, what has it links nowhere, or the path is stopped further on
    rcases hwalk with ⟨hnone, rfl⟩ | ⟨key, hfound, hmore, ⟨hends, rfl⟩ | ⟨target, htarget, hwalk⟩⟩
    · refine ⟨[], segment, rest, type, htype, rfl, .here, fun _ => rfl, fun key hoffers => ?_⟩
      rw [h.realizes.findProp?_eq_some_iff.2 hoffers] at hnone
      cases hnone
    · refine ⟨[], segment, rest, type, htype, rfl, .here, fun hunknown => ?_,
        fun other hother => ?_⟩
      · exact absurd (h.realizes.findProp?_eq_some_iff.1 hfound) (hunknown key)
      · rw [h.realizes.findProp?_eq_some_iff.2 hother] at hfound
        obtain rfl := Option.some.inj hfound
        exact ⟨hmore, hends, rfl⟩
    · obtain ⟨next, hnext, rfl⟩ := h.exists_target htarget
      obtain ⟨before, blocked, after, owner, howner, rfl, harrives, hblocks⟩ := ih hnext hwalk
      exact ⟨segment :: before, blocked, after, owner, howner, rfl,
        .onward (h.realizes.findProp?_eq_some_iff.1 hfound) htarget harrives, hblocks⟩

end Registry.Sound

/-- What blocks a path is a missing reference. -/
theorem Graph.Blocks.cls_eq {graph : Graph} {owner : TypeNode} {path segment : String}
    {rest : List String} {violation : Violation}
    (h : graph.Blocks owner path segment rest violation) :
    violation.diagnostic.cls = .reference := by
  by_cases hunknown : ∀ key, ¬ graph.Offers owner.key segment key
  · rw [h.unknown hunknown]
    rfl
  · obtain ⟨key, hoffers⟩ := not_forall_not.1 hunknown
    rw [(h.impassable key hoffers).2.2]
    rfl

/-- In a reachable registry every path from every type is answered exactly by the way whose names,
joined by dots, are the path. Without such a way it is refused for a missing reference, at the
first segment that names no property of the type reached, where the type is blamed, or that names
one which links nowhere although there are more segments, where that member is blamed. A path in
two parts is answered by the answer to the first part and that to the second part from the type
that the last property of the first links to. -/
theorem Reachable.answersPaths {source : Source} {config : Config} {registry : Registry}
    (h : Reachable source config registry) {type : TypeNode}
    (htype : type ∈ registry.graph.types) : registry.graph.AnswersPaths type := by
  have hsound := h.sound
  have hok : ∀ path keys, registry.graph.propPath type.key path = .ok keys ↔
      registry.graph.Way type.key keys ∧
        Text.joinDots (keys.map registry.graph.propName) = path := by
    intro path keys
    rw [hsound.realizes.propPath_eq_ok_iff]
    exact and_congr_right fun hway => hsound.realizes.map_propName_eq_iff hway
  refine ⟨hok, fun path hnone => ?_, fun first second keys =>
    hsound.realizes.propPath_append first second⟩
  cases hpath : registry.graph.propPath type.key path with
  | ok keys => exact absurd ⟨keys, (hok path keys).1 hpath⟩ hnone
  | error violation =>
    obtain ⟨before, segment, rest, owner, howner, hsegments, harrives, hblocks⟩ :=
      hsound.exists_blocks htype hpath
    exact ⟨violation, before, segment, rest, owner, howner, rfl, hblocks.cls_eq, hsegments,
      harrives, hblocks⟩

/-- Employees below persons, with a manager each, who is an employee as well, and an address. -/
def staff : Source where
  declarations := {
    toList := [
      { simpleName := "Employee"
        tags := [.entity none]
        interfaces := ["Person"]
        members := [
          { name := "manager", type := .named "Employee" },
          { name := "home", type := .named "Address" }] },
      { simpleName := "Person"
        tags := [.mappedSuperclass none false]
        members := [
          { name := "number", type := .named "int", tags := [.id] },
          { name := "name", type := .named "string" }] },
      { simpleName := "Address"
        tags := [.embeddable]
        members := [{ name := "city", type := .named "string" }] }]
    names_nodup := by decide }

theorem Reachable.answersPaths_staff :
    ∃ registry, Reachable staff {} registry ∧
      registry.graph.propPath ⟨1⟩ "manager.manager.home.city" = .ok [⟨2⟩, ⟨2⟩, ⟨3⟩, ⟨4⟩] ∧
      registry.graph.propPath ⟨1⟩ "manager.name.length" =
        .error (.ofMember "Employee" "name" (.impassableSegment "manager.name.length" "name")) ∧
      ∃ employee ∈ registry.graph.types, employee.key = ⟨1⟩ ∧
        registry.graph.AnswersPaths employee := by
  let registered := ((Command.resolve "Employee").run staff {} {}).registry
  let linked := (Command.linkTargets.run staff {} registered).registry
  let registry := (Command.resolveRounds.run staff {} linked).registry
  have hreachable : Reachable staff {} registry :=
    .step .resolveRounds (.step .linkTargets (.step (.resolve "Employee") .refl))
  refine ⟨registry, hreachable, by decide +kernel, by decide +kernel, ?_⟩
  have hkeys : (⟨1⟩ : TypeKey) ∈ registry.graph.types.map (·.key) := by decide +kernel
  obtain ⟨employee, hemployee, hkey⟩ := List.mem_map.1 hkeys
  exact ⟨employee, hemployee, hkey, Reachable.answersPaths hreachable hemployee⟩

end Metamodel
