import Metamodel.Proofs.Graph.Ancestry
import Metamodel.Proofs.Standing

/-!
# Dependencies are paths

Two functions follow dotted paths through a graph. `Graph.walkDependency` does while resolution is
under way: it starts at the type that declares an expression and waits wherever something is still
pending. `Graph.walkPath` answers a query on whatever is there and starts at any type. Where the
first gets to the end, the second goes the same way (`walkPath_of_walkDependency`), and it does so
from every descendant as well, for a descendant has what its ancestor has and no second property
of a name (`Realizes.walkPath_of_inheritsFrom`). Since what is settled stands, a dependency can be
asked for as a path at any time (`Reachable.propPath_dependency`).
-/

namespace Metamodel

namespace Graph

variable {source : Source} {config : Config} {graph : Graph} {key : PropKey} {owner : TypeKey}
  {path : String} {segments : List String} {keys : List PropKey}

/-! ### One way for both -/

/-- A dependency that is followed to its end is a path along the same properties. -/
theorem walkPath_of_walkDependency
    (h : graph.walkDependency path owner segments = .ok (some keys)) :
    graph.walkPath path owner segments = .ok keys := by
  induction segments generalizing owner keys with
  | nil =>
    cases h
    rfl
  | cons segment rest ih =>
    rw [walkDependency] at h
    rw [walkPath]
    cases hfound : graph.findProp? owner segment with
    | none => simp [dependencyAt, hfound] at h
    | some key =>
      simp only [dependencyAt, hfound] at h ⊢
      by_cases hrest : rest = []
      · simp only [hrest, ↓reduceIte] at h ⊢
        split at h
        · cases h
        · cases h
          rfl
      · simp only [hrest, ↓reduceIte] at h ⊢
        split at h
        · cases h
        · cases htarget : graph.target? key with
          | none => simp [htarget] at h
          | some target =>
            simp only [htarget, Except.map_eq_ok_iff, Option.map_eq_some_iff] at h
            obtain ⟨_, hwalk, keys, rfl, rfl⟩ := h
            simp only [ih hwalk]
            rfl

/-- The properties along a path are there and have the names of its segments. -/
theorem exists_props_of_walkPath (h : graph.walkPath path owner segments = .ok keys) :
    ∃ props : List Property, keys.map graph.prop? = props.map some ∧
      props.map (·.name) = segments := by
  induction segments generalizing owner keys with
  | nil =>
    cases h
    exact ⟨[], rfl, rfl⟩
  | cons segment rest ih =>
    rw [walkPath] at h
    cases hfound : graph.findProp? owner segment with
    | none => simp [hfound] at h
    | some key =>
      obtain ⟨-, prop, hkey, rfl⟩ := findProp?_eq_some hfound
      simp only [hfound] at h
      by_cases hrest : rest = []
      · simp only [hrest, ↓reduceIte] at h
        cases h
        exact ⟨[prop], by simp [hkey], by simp [hrest]⟩
      · simp only [hrest, ↓reduceIte] at h
        split at h
        · cases h
        · obtain ⟨keys, hwalk, rfl⟩ := Except.map_eq_ok_iff.1 h
          obtain ⟨props, hprops, hnames⟩ := ih hwalk
          exact ⟨prop :: props, by simp [hkey, hprops], by simp [hnames]⟩

/-- So the segments can be read off their labels. -/
theorem names_of_walkPath (h : graph.walkPath path owner segments = .ok keys) :
    keys.map (fun key => (graph.label key).name) = segments := by
  obtain ⟨props, hprops, rfl⟩ := exists_props_of_walkPath h
  clear h
  induction keys generalizing props with
  | nil =>
    obtain rfl : props = [] := by simpa using hprops.symm
    rfl
  | cons key keys ih =>
    cases props with
    | nil => simp at hprops
    | cons prop props =>
      simp only [List.map_cons, List.cons.injEq] at hprops ⊢
      exact ⟨name_label hprops.1, ih props hprops.2⟩

/-! ### Descendants -/

/-- A descendant has the same property under a name as its ancestor. -/
theorem Realizes.findProp?_of_inheritsFrom (h : graph.Realizes source config)
    {type ancestor : TypeNode} (htype : type ∈ graph.types)
    (hinherits : graph.InheritsFrom type ancestor) {name : String}
    (hfound : graph.findProp? ancestor.key name = some key) :
    graph.findProp? type.key name = some key := by
  obtain ⟨lineage, hlineage, hplaces⟩ := h.placed type htype
  obtain ⟨above, habove⟩ := hplaces.exists_of_inheritsFrom hinherits
  obtain ⟨hmem, prop, hkey, rfl⟩ := findProp?_eq_some hfound
  exact findProp?_eq_of_nodup (hplaces.names_nodup hlineage)
    (hplaces.mem_of_inheritsFrom habove hinherits hmem) hkey

/-- A path from a type is the same from all its descendants. -/
theorem Realizes.walkPath_of_inheritsFrom (h : graph.Realizes source config)
    {type ancestor : TypeNode} (htype : type ∈ graph.types)
    (hinherits : graph.InheritsFrom type ancestor)
    (hwalk : graph.walkPath path ancestor.key segments = .ok keys) :
    graph.walkPath path type.key segments = .ok keys := by
  cases segments with
  | nil => exact hwalk
  | cons segment rest =>
    rw [walkPath] at hwalk ⊢
    cases hfound : graph.findProp? ancestor.key segment with
    | none => simp [hfound] at hwalk
    | some key =>
      -- from the second segment on there is no difference
      rw [h.findProp?_of_inheritsFrom htype hinherits hfound]
      simp only [hfound] at hwalk ⊢
      by_cases hrest : rest = []
      · simpa only [hrest, ↓reduceIte] using hwalk
      · simp only [hrest, ↓reduceIte] at hwalk ⊢
        cases htarget : graph.target? key with
        | none => simp [htarget] at hwalk
        | some target => simpa only [htarget] using hwalk

/-! ### What an expression is settled to -/

/-- Each dependency that is followed is the way along its own text. -/
theorem walkDependency_of_followDependencies {paths : List String} {dependencies : List PropPath}
    (h : graph.followDependencies owner paths = .ok (some dependencies)) :
    dependencies.map (·.raw) = paths ∧ ∀ dependency ∈ dependencies,
      graph.walkDependency dependency.raw owner (Text.splitDots dependency.raw) =
        .ok (some dependency.segments) := by
  induction paths generalizing dependencies with
  | nil =>
    cases h
    simp
  | cons path rest ih =>
    rw [followDependencies] at h
    split at h
    · cases h
    · cases h
    · next segments hwalk =>
      simp only [Except.map_eq_ok_iff, Option.map_eq_some_iff] at h
      obtain ⟨_, hrest, dependencies, rfl, rfl⟩ := h
      obtain ⟨hraw, hall⟩ := ih hrest
      rw [List.map_cons, hraw, List.forall_mem_cons]
      exact ⟨rfl, hwalk, hall⟩

/-- Only the settlement of an expression has dependencies. -/
theorem followDependencies_of_attempt {prop : Property} {settlement : Settlement}
    (h : graph.attempt prop = .ok (some settlement)) :
    graph.followDependencies prop.declaringType prop.kind.paths =
      .ok (some settlement.dependencies) := by
  rw [attempt] at h
  cases hkind : prop.kind with
  | sql text =>
    rw [hkind] at h
    cases h
    rfl
  | scalar =>
    simp only [hkind, settleScalar, Except.map_eq_ok_iff, Except.bind_eq_ok_iff] at h
    obtain ⟨_, ⟨linked, -, hsettle⟩, hsome⟩ := h
    cases hsome
    cases hsettle
    rfl
  | association =>
    simp only [hkind, settleAssociation, Except.map_eq_ok_iff, Except.bind_eq_ok_iff] at h
    obtain ⟨_, ⟨linked, -, hsettle⟩, hsome⟩ := h
    cases hsome
    split at hsettle
    · cases hsettle
    · split at hsettle
      · cases hsettle
        rfl
      · cases hsettle
  | expression paths =>
    simp only [hkind, Except.map_eq_ok_iff, Option.map_eq_some_iff] at h
    obtain ⟨_, hfollow, dependencies, rfl, rfl⟩ := h
    exact hfollow

/-- What stands has followed its paths. -/
theorem Stands.followDependencies {prop : Property} (h : graph.Stands prop)
    (hresolved : prop.resolution.isResolved = true) :
    graph.followDependencies prop.declaringType prop.kind.paths =
      .ok (some prop.resolution.dependencies) := by
  cases hresolution : prop.resolution with
  | pending | failed _ =>
    rw [hresolution] at hresolved
    cases hresolved
  | resolved round target dependencies =>
    exact followDependencies_of_attempt (h round target dependencies hresolution)

end Graph

variable {source : Source} {config : Config} {before after registry : Registry}

/-- In a reachable registry a dependency is the path of its text from the type that declares the
expression, and from all its descendants. -/
theorem Reachable.walkPath_dependency (h : Reachable source config registry) {prop : Property}
    (hprop : prop ∈ registry.graph.props) {dependency : PropPath}
    (hdependency : dependency ∈ prop.resolution.dependencies) :
    registry.graph.propPath prop.declaringType dependency.raw = .ok dependency.segments := by
  have hresolved : prop.resolution.isResolved = true := by
    cases hresolution : prop.resolution with
    | pending | failed _ =>
      rw [hresolution] at hdependency
      cases hdependency
    | resolved _ _ _ => rfl
  have hfollow := (h.stands prop hprop).followDependencies hresolved
  obtain ⟨-, hwalk⟩ := Graph.walkDependency_of_followDependencies hfollow
  exact Graph.walkPath_of_walkDependency (hwalk dependency hdependency)

/-- In a reachable registry each dependency of a settled expression can be asked for as a path, by
its text, and the answer is the dependency: from the type that declares the expression and from
every descendant of that type, after whatever further calls, also from descendants that are
registered only then. The names of the properties on the way, joined by dots, are the text. -/
theorem Reachable.propPath_dependency (h : Reachable source config before)
    (hleads : LeadsTo source config before after) :
    ∀ prop ∈ before.graph.props, ∀ dependency ∈ prop.resolution.dependencies,
      (∃ owner, before.graph.type? prop.declaringType = some owner ∧
        ∀ type ∈ after.graph.types, type = owner ∨ after.graph.InheritsFrom type owner →
          after.graph.propPath type.key dependency.raw = .ok dependency.segments) ∧
      ∃ props : List Property,
        dependency.segments.map after.graph.prop? = props.map some ∧
          Text.joinDots (props.map (·.name)) = dependency.raw := by
  intro prop hprop dependency hdependency
  have hrealizes := h.sound.realizes
  have hcontinues := (Registry.continues_of_moves hleads.moves hrealizes).2
  have hafter : Reachable source config after := LeadsTo.trans h hleads
  -- the expression is settled, so it is there unchanged
  obtain ⟨key, hkey⟩ := Graph.exists_prop?_eq_some hprop
  have hsettled : prop.resolution ≠ .pending := by
    intro hpending
    rw [hpending] at hdependency
    cases hdependency
  have hlater := List.mem_of_getElem? (hcontinues.kept hkey hsettled)
  have hpath := hafter.walkPath_dependency hlater hdependency
  obtain ⟨owner, _, _, -, -, -, hplaces, hdeclares, -⟩ := hrealizes.exists_owner hkey
  constructor
  · refine ⟨owner, by rw [hdeclares, hplaces.type?_key], ?_⟩
    rw [hdeclares] at hpath
    intro type htype hdescends
    rcases hdescends with rfl | hinherits
    · exact hpath
    · exact hafter.sound.realizes.walkPath_of_inheritsFrom htype hinherits hpath
  · obtain ⟨props, hprops, hnames⟩ := Graph.exists_props_of_walkPath hpath
    exact ⟨props, hprops, by rw [hnames, Text.joinDots_splitDots]⟩

/-- Sales to customers, with a title computed from the customer's name, and orders, which are
sales. -/
def sales : Source where
  declarations := {
    toList := [
      { simpleName := "Sale"
        tags := [.mappedSuperclass none false]
        members := [
          { name := "customer", type := .named "Customer" },
          { name := "title", type := .named "string", hasBody := true
            tags := [.formula { dependencies := ["customer.name"] }] }] },
      { simpleName := "Customer"
        tags := [.entity none]
        members := [
          { name := "id", type := .named "int", tags := [.id] },
          { name := "name", type := .named "string" }] },
      { simpleName := "Order"
        tags := [.entity none]
        interfaces := ["Sale"]
        members := [{ name := "id", type := .named "int", tags := [.id] }] }]
    names_nodup := by decide }

theorem Reachable.propPath_dependency_sales :
    ∃ before after sale order, Reachable sales {} before ∧ LeadsTo sales {} before after ∧
      before.graph.types.map (·.qualifiedName) = ["Sale", "Customer"] ∧
      after.graph.type? ⟨2⟩ = some order ∧ after.graph.InheritsFrom order sale ∧
      after.graph.propPath order.key "customer.name" = .ok [⟨1⟩, ⟨3⟩] := by
  let before := ((Command.resolveRounds.run sales {} ((Command.resolve "Customer").run sales {}
    ((Command.resolve "Sale").run sales {} {}).registry).registry).registry)
  have hreachable : Reachable sales {} before :=
    .step .resolveRounds <| .step (.resolve "Customer") <| .step (.resolve "Sale") .refl
  -- the order is registered after all rounds
  have hleads : LeadsTo sales {} before _ := .step (.resolve "Order") .refl
  obtain ⟨title, htitle, hsettled⟩ : ∃ title, before.graph.prop? ⟨0⟩ = some title ∧
      title.resolution.dependencies = [⟨"customer.name", [⟨1⟩, ⟨3⟩]⟩] ∧
      title.declaringType = ⟨0⟩ := by
    have h : (before.graph.prop? ⟨0⟩).map
        (fun prop => (prop.resolution.dependencies, prop.declaringType)) =
        some ([⟨"customer.name", [⟨1⟩, ⟨3⟩]⟩], ⟨0⟩) := by decide +kernel
    obtain ⟨title, htitle, hpair⟩ := Option.map_eq_some_iff.1 h
    exact ⟨title, htitle, congrArg Prod.fst hpair, congrArg Prod.snd hpair⟩
  obtain ⟨⟨sale, hsale, hall⟩, -⟩ := Reachable.propPath_dependency hreachable hleads title
    (List.mem_of_getElem? htitle) ⟨"customer.name", [⟨1⟩, ⟨3⟩]⟩
    (hsettled.1 ▸ List.mem_singleton_self _)
  have hkept : ((Command.resolve "Order").run sales {} before).registry.graph.type? ⟨0⟩ =
      before.graph.type? ⟨0⟩ := by decide +kernel
  obtain ⟨order, horder, hsuper⟩ := Option.map_eq_some_iff.1
    (show (((Command.resolve "Order").run sales {} before).registry.graph.type? ⟨2⟩).map
      (·.superType) = some (some ⟨0⟩) by decide +kernel)
  have hinherits : Graph.InheritsFrom _ order sale :=
    .single ⟨⟨0⟩, hsuper, by rw [hkept, ← hsettled.2, hsale]⟩
  exact ⟨before, _, sale, order, hreachable, hleads, by decide +kernel, horder, hinherits,
    hall order (List.mem_of_getElem? horder) (.inr hinherits)⟩

end Metamodel
