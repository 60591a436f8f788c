import Mathlib.Data.List.Nodup
import Mathlib.Logic.Relation
import Metamodel.Proofs.Graph.Index

/-!
# Links and paths by declaration

What a property links to, which properties the segments of a path name, and which expressions an
expression has to wait for can be read off a graph before anything is resolved. `Graph.link?`,
`Graph.Navigates` and `Graph.Awaits` say so, and `Graph.Settles` says what a property settles to,
if it ever does. None of this changes while properties are resolved. In a regular graph a path
leads along one way at most (`Navigates.unique`).
-/

namespace Metamodel

namespace Graph

/-- The type that a property links to: the one its type names, for an association, and the
embeddable that its type names, for a plain property. -/
def link? (graph : Graph) (prop : Property) : Option TypeKey :=
  match prop.kind with
  | .association => graph.keyOf? prop.type.innermost
  | .scalar =>
    ((graph.find? prop.type.innermost).filter (·.category = .embeddable)).map (·.key)
  | .expression _ | .sql _ => none

/-- From a type on, each segment names the property at the key in its place: one in the merged
view of the type reached so far, which is the one that the property before it links to. -/
inductive Navigates (graph : Graph) : TypeKey → List String → List PropKey → Prop where
  | last {owner : TypeKey} {key : PropKey} {prop : Property} :
    key ∈ graph.mergedProps owner →
    graph.prop? key = some prop →
    Navigates graph owner [prop.name] [key]
  | step {owner target : TypeKey} {key : PropKey} {prop : Property} {segments : List String}
      {keys : List PropKey} :
    key ∈ graph.mergedProps owner →
    graph.prop? key = some prop →
    graph.link? prop = some target →
    Navigates graph target segments keys →
    Navigates graph owner (prop.name :: segments) (key :: keys)

/-- A dependency is a path from a type on, with the properties that its segments name. -/
def Follows (graph : Graph) (owner : TypeKey) (path : String) (dependency : PropPath) : Prop :=
  dependency.raw = path ∧ graph.Navigates owner (Text.splitDots path) dependency.segments

/-- An expression waits for the expressions at the ends of its paths. -/
def Awaits (graph : Graph) (waiting awaited : PropKey) : Prop :=
  ∃ prop other path keys, graph.prop? waiting = some prop ∧ path ∈ prop.kind.paths ∧
    graph.Navigates prop.declaringType (Text.splitDots path) keys ∧
    keys.getLast? = some awaited ∧ graph.prop? awaited = some other ∧
    other.kind.isExpression = true

/-- No chain of waiting goes on for ever from a property. -/
def Grounded (graph : Graph) (key : PropKey) : Prop :=
  Acc (fun awaited waiting => graph.Awaits waiting awaited) key

/-- Every association links to an entity. -/
def AssociationsReachEntities (graph : Graph) : Prop :=
  ∀ prop ∈ graph.props, prop.kind = .association →
    ∃ type ∈ graph.types, graph.link? prop = some type.key ∧ type.category = .entity

/-- Every path of an expression can be followed to its end. -/
def PathsNavigable (graph : Graph) : Prop :=
  ∀ prop ∈ graph.props, ∀ path ∈ prop.kind.paths,
    ∃ keys, graph.Navigates prop.declaringType (Text.splitDots path) keys

/-- What a property settles to: what it links to, and its paths in the order in which they are
declared, each with the properties on the way. An association has to link to an entity. -/
structure Settles (graph : Graph) (prop : Property) (settlement : Settlement) : Prop where
  target : settlement.target = graph.link? prop
  dependencies : List.Forall₂ (graph.Follows prop.declaringType) prop.kind.paths
    settlement.dependencies
  entity : prop.kind = .association →
    ∃ type ∈ graph.types, graph.link? prop = some type.key ∧ type.category = .entity

/-- What registration makes of a graph: the index is in step with the types, types declare all
properties in order, the names in a merged view are distinct, and properties refer to what is
registered. -/
structure Regular (graph : Graph) : Prop extends Indexed graph where
  declared : graph.types.flatMap (·.declared) = graph.propKeys
  names_nodup : ∀ owner : TypeKey,
    ((graph.mergedProps owner).map fun key => (graph.label key).name).Nodup
  reference : ∀ {key : PropKey} {prop : Property}, graph.prop? key = some prop →
    prop.reference = (graph.find? prop.type.innermost).map fun _ => prop.type.innermost

/-- Every property has something to settle to. -/
def Settleable (graph : Graph) : Prop :=
  ∀ prop ∈ graph.props, ∃ settlement, graph.Settles prop settlement

/-- Everything can settle exactly when associations reach entities and paths their ends. -/
theorem settleable_iff {graph : Graph} :
    graph.Settleable ↔ graph.AssociationsReachEntities ∧ graph.PathsNavigable := by
  constructor
  · intro h
    constructor
    · intro prop hprop
      obtain ⟨settlement, hsettles⟩ := h prop hprop
      exact hsettles.entity
    · intro prop hprop path hpath
      obtain ⟨settlement, hsettles⟩ := h prop hprop
      obtain ⟨index, hlt, rfl⟩ := List.getElem_of_mem hpath
      have hfollows := hsettles.dependencies.get hlt (hsettles.dependencies.length_eq ▸ hlt)
      exact ⟨_, hfollows.2⟩
  · rintro ⟨hassociations, hpaths⟩ prop hprop
    have hdependencies : ∀ paths : List String, (∀ path ∈ paths, ∃ keys,
        graph.Navigates prop.declaringType (Text.splitDots path) keys) →
        ∃ dependencies, List.Forall₂ (graph.Follows prop.declaringType) paths dependencies := by
      intro paths hkeys
      induction paths with
      | nil => exact ⟨[], .nil⟩
      | cons path paths ih =>
        obtain ⟨keys, hnavigates⟩ := hkeys path (by simp)
        obtain ⟨dependencies, hrest⟩ := ih fun other hother => hkeys other (by simp [hother])
        exact ⟨⟨path, keys⟩ :: dependencies, .cons ⟨rfl, hnavigates⟩ hrest⟩
    obtain ⟨dependencies, hfollow⟩ := hdependencies _ (hpaths prop hprop)
    exact ⟨⟨graph.link? prop, dependencies⟩, rfl, hfollow, hassociations prop hprop⟩

variable {graph other : Graph} {prop : Property}

theorem name_label {key : PropKey} (hkey : graph.prop? key = some prop) :
    (graph.label key).name = prop.name := by
  rw [label, hkey]

/-- Where names are distinct, each property of a type is found under its name. -/
theorem findProp?_eq_of_nodup {owner : TypeKey}
    (hnodup : ((graph.mergedProps owner).map fun key => (graph.label key).name).Nodup)
    {key : PropKey} (hmem : key ∈ graph.mergedProps owner) (hkey : graph.prop? key = some prop) :
    graph.findProp? owner prop.name = some key := by
  refine List.find?_eq_some_of_nodup_map hnodup hmem (by simp [hkey]) ?_
  intro other _ hnamed
  obtain ⟨prop', hother, hname⟩ := (Option.any_eq_true _ _).1 hnamed
  rw [name_label hother, name_label hkey]
  simpa using hname

/-- The property that a type has under a name is the only one of that name in its view. -/
theorem Regular.findProp?_eq (h : graph.Regular) {owner : TypeKey} {key : PropKey}
    (hmem : key ∈ graph.mergedProps owner) (hkey : graph.prop? key = some prop) :
    graph.findProp? owner prop.name = some key :=
  findProp?_eq_of_nodup (h.names_nodup owner) hmem hkey

/-- The property found under a name has that name and is in the view of the type. -/
theorem findProp?_eq_some {owner : TypeKey} {name : String} {key : PropKey}
    (h : graph.findProp? owner name = some key) :
    key ∈ graph.mergedProps owner ∧ ∃ prop, graph.prop? key = some prop ∧ prop.name = name := by
  refine ⟨List.mem_of_find?_eq_some h, ?_⟩
  have hname := List.find?_some h
  cases hkey : graph.prop? key with
  | none => simp [hkey] at hname
  | some prop => exact ⟨prop, rfl, by simpa [hkey] using hname⟩

/-- A path leads nowhere without segments. -/
theorem Navigates.ne_nil {owner : TypeKey} {segments : List String} {keys : List PropKey}
    (h : graph.Navigates owner segments keys) : segments ≠ [] ∧ keys ≠ [] := by
  cases h <;> simp

/-- In a regular graph a path leads along one way at most. -/
theorem Navigates.unique (hregular : graph.Regular) {owner : TypeKey} {segments : List String}
    {keys keys' : List PropKey} (h : graph.Navigates owner segments keys)
    (h' : graph.Navigates owner segments keys') : keys = keys' := by
  induction h generalizing keys' with
  | @last owner key prop hmem hkey =>
    have hfound := hregular.findProp?_eq hmem hkey
    -- both ways start with a property of this name, so the name must not be tied to either
    generalize hname : prop.name = name at h' hfound
    cases h' with
    | @last _ key' prop' hmem' hkey' =>
      rw [hregular.findProp?_eq hmem' hkey'] at hfound
      rw [Option.some.inj hfound]
    | step _ _ _ hrest => exact absurd rfl hrest.ne_nil.1
  | @step owner target key prop segments keys hmem hkey hlink hrest ih =>
    have hfound := hregular.findProp?_eq hmem hkey
    generalize hname : prop.name = name at h' hfound
    cases h' with
    | last _ _ => exact absurd rfl hrest.ne_nil.1
    | @step _ target' key' prop' _ keys' hmem' hkey' hlink' hrest' =>
      rw [hregular.findProp?_eq hmem' hkey'] at hfound
      obtain rfl := Option.some.inj hfound
      obtain rfl := Option.some.inj (hkey.symm.trans hkey')
      obtain rfl := Option.some.inj (hlink.symm.trans hlink')
      rw [ih hrest']

/-! ### Independence of resolution -/

@[simp]
theorem link?_fresh : graph.link? prop.fresh = graph.link? prop := rfl

theorem mergedProps_congr (h : graph.fresh = other.fresh) :
    graph.mergedProps = other.mergedProps := by
  funext key
  rw [← mergedProps_fresh, h, mergedProps_fresh]

theorem link?_congr (h : graph.fresh = other.fresh) : graph.link? = other.link? := by
  funext prop
  simp only [link?, keyOf?_congr h, find?_congr h]

/-- A property of one graph is there in the other, but for its resolution. -/
theorem exists_prop?_of_fresh (h : graph.fresh = other.fresh) {key : PropKey}
    (hkey : graph.prop? key = some prop) :
    ∃ prop', other.prop? key = some prop' ∧ prop'.fresh = prop.fresh := by
  have hfresh := prop?_fresh_congr h key
  rw [hkey, Option.map_some, eq_comm, Option.map_eq_some_iff] at hfresh
  exact hfresh

theorem Navigates.congr (h : graph.fresh = other.fresh) {owner : TypeKey}
    {segments : List String} {keys : List PropKey}
    (hnavigates : graph.Navigates owner segments keys) :
    other.Navigates owner segments keys := by
  induction hnavigates with
  | @last owner key prop hmem hkey =>
    obtain ⟨prop', hkey', hfresh⟩ := exists_prop?_of_fresh h hkey
    rw [show prop.name = prop'.name from (congrArg (·.name) hfresh).symm]
    exact .last (mergedProps_congr h ▸ hmem) hkey'
  | @step owner target key prop segments keys hmem hkey hlink _ ih =>
    obtain ⟨prop', hkey', hfresh⟩ := exists_prop?_of_fresh h hkey
    rw [show prop.name = prop'.name from (congrArg (·.name) hfresh).symm]
    refine .step (mergedProps_congr h ▸ hmem) hkey' ?_ ih
    rw [← link?_fresh, hfresh, link?_fresh, ← link?_congr h, hlink]

/-- What an expression waits for does not depend on how far resolution has come. -/
theorem Awaits.congr (h : graph.fresh = other.fresh) {waiting awaited : PropKey}
    (hawaits : graph.Awaits waiting awaited) : other.Awaits waiting awaited := by
  obtain ⟨prop, target, path, keys, hprop, hpath, hkeys, hlast, htarget, hkind⟩ := hawaits
  obtain ⟨prop', hprop', hfresh⟩ := exists_prop?_of_fresh h hprop
  obtain ⟨target', htarget', hfresh'⟩ := exists_prop?_of_fresh h htarget
  refine ⟨prop', target', path, keys, hprop', ?_, ?_, hlast, htarget', ?_⟩
  · rwa [show prop'.kind = prop.kind from congrArg (·.kind) hfresh]
  · rw [show prop'.declaringType = prop.declaringType from congrArg (·.declaringType) hfresh]
    exact hkeys.congr h
  · rwa [show target'.kind = target.kind from congrArg (·.kind) hfresh']

theorem Grounded.congr (h : graph.fresh = other.fresh) {key : PropKey}
    (hgrounded : graph.Grounded key) : other.Grounded key := by
  induction hgrounded with
  | intro key _ ih => exact .intro key fun awaited hawaits => ih awaited (hawaits.congr h.symm)

/-- What a property settles to does not depend on how far resolution has come. -/
theorem Settles.congr (h : graph.fresh = other.fresh) {prop' : Property}
    (hfresh : prop'.fresh = prop.fresh) {settlement : Settlement}
    (hsettles : graph.Settles prop settlement) : other.Settles prop' settlement := by
  have hkind : prop'.kind = prop.kind := congrArg (·.kind) hfresh
  have hlink : other.link? prop' = graph.link? prop := by
    rw [← link?_fresh, hfresh, link?_fresh, link?_congr h]
  refine ⟨hsettles.target.trans hlink.symm, ?_, ?_⟩
  · rw [hkind, show prop'.declaringType = prop.declaringType from
      congrArg (·.declaringType) hfresh]
    exact hsettles.dependencies.imp fun _ _ hfollows => ⟨hfollows.1, hfollows.2.congr h⟩
  · rw [hkind, hlink, ← types_eq_of_fresh h]
    exact hsettles.entity

/-- Whether everything can settle does not depend on how far resolution has come. -/
theorem Settleable.congr (h : graph.fresh = other.fresh) (hall : graph.Settleable) :
    other.Settleable := by
  intro prop hprop
  obtain ⟨key, hkey⟩ := exists_prop?_eq_some hprop
  obtain ⟨prop', hkey', hfresh⟩ := exists_prop?_of_fresh h.symm hkey
  obtain ⟨settlement, hsettles⟩ := hall prop' (List.mem_of_getElem? hkey')
  exact ⟨settlement, hsettles.congr h hfresh.symm⟩

end Graph

end Metamodel
