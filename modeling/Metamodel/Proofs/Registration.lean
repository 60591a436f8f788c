import Metamodel.Proofs.Graph.Growth

/-!
# Registration of lineages

`Registry.resolve` registers a name exactly when the source gives it a lineage
(`resolve_ok_iff`), whatever is registered already. All that it does to a registry is to add types
at the end, with pending properties and an event for each (`Registry.Adds`). Hence
`Registry.resolveAll` succeeds exactly when every name has a lineage (`resolveAll_ok_iff`), and
then all declared names are registered (`resolveAll_complete`).
-/

namespace Metamodel

/-- The event that reports the registration of a type. -/
def TypeNode.registered (type : TypeNode) : Event :=
  .typeRegistered type.qualifiedName type.category type.declared.length

/-- The entry of a type in the index. -/
def TypeNode.entry (type : TypeNode) : String × TypeKey :=
  (type.qualifiedName, type.key)

namespace Registry

/-- Registration of types with their properties: they come last, pending and reported, the index
gets an entry for each, none of them is under construction, and nothing else changes. -/
structure Adds (before : Registry) (types : List TypeNode) (props : List Property)
    (after : Registry) : Prop where
  types_eq : after.graph.types = before.graph.types ++ types
  props_eq : after.graph.props = before.graph.props ++ props
  byName_eq : after.graph.byName = (types.map TypeNode.entry).reverse ++ before.graph.byName
  pending : ∀ prop ∈ props, prop.resolution = .pending
  events_eq : after.events = before.events ++ types.map TypeNode.registered
  inProgress_eq : after.inProgress = before.inProgress
  idle : ∀ type ∈ types, type.qualifiedName ∉ before.inProgress

namespace Adds

variable {first second third : Registry} {types types' : List TypeNode}
  {props props' : List Property}

theorem nil (registry : Registry) : registry.Adds [] [] registry :=
  ⟨by simp, by simp, by simp, by simp, by simp, rfl, by simp⟩

theorem append (h : first.Adds types props second) (h' : second.Adds types' props' third) :
    first.Adds (types ++ types') (props ++ props') third where
  types_eq := by rw [h'.types_eq, h.types_eq, List.append_assoc]
  props_eq := by rw [h'.props_eq, h.props_eq, List.append_assoc]
  byName_eq := by
    rw [h'.byName_eq, h.byName_eq, List.map_append, List.reverse_append, List.append_assoc]
  pending prop hprop := (List.mem_append.1 hprop).elim (h.pending prop) (h'.pending prop)
  events_eq := by rw [h'.events_eq, h.events_eq, List.map_append, List.append_assoc]
  inProgress_eq := h'.inProgress_eq.trans h.inProgress_eq
  idle type htype := (List.mem_append.1 htype).elim (h.idle type)
    fun hlater => h.inProgress_eq ▸ h'.idle type hlater

/-- Registration makes the graph grow. -/
theorem grows (h : first.Adds types props second) : first.graph.Grows second.graph :=
  ⟨⟨types, h.types_eq.symm⟩, ⟨props.map Property.fresh, by simp [Graph.fresh, h.props_eq]⟩⟩

/-- A name that is under construction is not registered meanwhile. -/
theorem keyOf?_eq_none (h : first.Adds types props second) {name : String}
    (hname : first.graph.keyOf? name = none) (hbusy : name ∈ first.inProgress) :
    second.graph.keyOf? name = none := by
  rw [Graph.keyOf?, h.byName_eq, List.lookup_append, Option.or_eq_none_iff]
  refine ⟨List.lookup_eq_none_iff.2 ?_, hname⟩
  simp only [List.mem_reverse, List.forall_mem_map]
  intro type htype
  -- an added type was not under construction
  have hother : name ≠ type.qualifiedName := fun heq => h.idle type htype (heq ▸ hbusy)
  simpa [TypeNode.entry] using hother

/-- While a name is under construction others may be registered, but not that one. -/
theorem of_enter {name : String} (h : (first.enter name).Adds types props second) :
    first.Adds types props second.leave where
  types_eq := h.types_eq
  props_eq := h.props_eq
  byName_eq := h.byName_eq
  pending := h.pending
  events_eq := h.events_eq
  inProgress_eq := by simp [leave, h.inProgress_eq, enter]
  idle type htype hbusy := h.idle type htype (List.mem_append_left _ hbusy)

end Adds

end Registry

namespace Graph

variable {source : Source} {config : Config} {graph : Graph} {header : Header}
  {ancestor : Option TypeKey} {above : Lineage}

/-- The ancestor that a header asks for is at a key, placed with its lineage; or the header asks
for none. -/
inductive Parent (graph : Graph) (source : Source) (config : Config) (header : Header) :
    Option TypeKey → Lineage → Prop where
  | root : header.ancestor = none → Parent graph source config header none []
  | under {name : String} {parent : TypeNode} {above : Lineage} :
    header.ancestor = some name →
    source.HasLineage config name above →
    graph.Places parent above →
    Parent graph source config header (some parent.key) above

namespace Parent

/-- What the ancestor lends is what its lineage lends. -/
theorem inherited?_eq (h : graph.Parent source config header ancestor above) :
    ancestor.bind graph.inherited? = above.inherited? := by
  cases h with
  | root _ => rfl
  | under _ _ hplaces => exact hplaces.inherited?_eq

/-- A blueprint that is legal under its ancestor continues the ancestor's lineage. -/
theorem hasLineage (h : graph.Parent source config header ancestor above) {name : String}
    {declaration : Declaration} {blueprint : Blueprint}
    (hdeclared : source.declaration? name = some declaration)
    (hheader : Header.ofDeclaration source declaration = .ok header)
    (hblueprint : Blueprint.ofDeclaration source config declaration header above.inherited? =
      .ok blueprint) : source.HasLineage config name (blueprint :: above) := by
  cases h with
  | root hroot => exact .root hdeclared hheader hroot hblueprint
  | under hancestor habove _ => exact .child hdeclared hheader hancestor habove hblueprint

/-- Added under its ancestor, a blueprint has its place. -/
theorem places_add (h : graph.Parent source config header ancestor above) {blueprint : Blueprint}
    (hslots : blueprint.SlotsFilled) :
    (graph.add blueprint ancestor).Places (graph.placeType blueprint ancestor)
      (blueprint :: above) := by
  have hbuilds := graph.builds_add ancestor hslots
  cases h with
  | root _ => exact .root hbuilds rfl
  | @under name parent above _ _ hplaces =>
    have hkey := hplaces.type?_key
    have hlt : parent.key.index < graph.types.length :=
      (List.getElem?_eq_some_iff.1 hkey).1
    refine .child ?_ rfl hlt (hplaces.mono (grows_add _ _ _))
    simpa [hkey] using hbuilds

end Parent

end Graph

namespace Registry

variable {source : Source} {config : Config} {registry : Registry}

/-- What an attempt to register a name leaves: a graph with every type in its place, to which
types were added, and the type of the name if the attempt succeeded. -/
structure Registers (source : Source) (config : Config) (name : String) (registry : Registry)
    (outcome : Outcome TypeKey) : Prop where
  realizes : outcome.registry.graph.Realizes source config
  adds : ∃ types props, registry.Adds types props outcome.registry
  found : ∀ {key}, outcome.result = .ok key →
    ∃ type, outcome.registry.graph.find? name = some type ∧ type.key = key

/-- An attempt that fails at once leaves everything as it was. -/
theorem Registers.of_error {name : String} (h : registry.graph.Realizes source config)
    (violation : Violation) :
    registry.Registers source config name ⟨.error violation, registry⟩ where
  realizes := h
  adds := ⟨[], [], .nil registry⟩
  found hkey := by cases hkey

/-- An attempt after which nothing is registered under the name has failed. -/
theorem Registers.exists_error {name : String} {outcome : Outcome TypeKey}
    (h : registry.Registers source config name outcome)
    (habsent : ∀ type ∈ outcome.registry.graph.types, type.qualifiedName ≠ name) :
    ∃ violation, outcome.result = .error violation := by
  cases hresult : outcome.result with
  | error violation => exact ⟨violation, rfl⟩
  | ok key =>
    obtain ⟨type, hfound, -⟩ := h.found hresult
    obtain ⟨htype, hname⟩ := h.realizes.find?_eq_some_iff.1 hfound
    exact absurd hname (habsent type htype)

/-- A construction adds the type that it is called for, or nothing. -/
theorem construct_adds {name : String} {declaration : Declaration} (config : Config)
    (header : Header) (ancestor : Option TypeKey)
    (hdeclared : source.declaration? name = some declaration)
    (hidle : name ∉ registry.inProgress) :
    ∃ types props, registry.Adds types props
        (registry.construct source config declaration header ancestor).registry ∧
      ∀ type ∈ types, type.qualifiedName = name := by
  rw [construct]
  cases hblueprint : Blueprint.ofDeclaration source config declaration header
      (ancestor.bind registry.graph.inherited?) with
  | error violation => exact ⟨[], [], .nil registry, by simp⟩
  | ok blueprint =>
    have hname := Blueprint.qualifiedName_of_declared hdeclared hblueprint
    refine ⟨[registry.graph.placeType blueprint ancestor], registry.graph.placeProps blueprint,
      ?_, by simpa [Graph.placeType] using hname⟩
    exact {
      types_eq := rfl
      props_eq := rfl
      byName_eq := rfl
      pending := by simp [Graph.placeProps]
      events_eq := by simp [record, TypeNode.registered, Graph.placeType]
      inProgress_eq := rfl
      idle := by simpa [Graph.placeType, hname] using hidle }

/-- The construction of a new type under its ancestor registers it, or changes nothing. -/
theorem construct_registers (h : registry.graph.Realizes source config) {name : String}
    {declaration : Declaration} {header : Header} {ancestor : Option TypeKey} {above : Lineage}
    (hnew : registry.graph.keyOf? name = none) (hidle : name ∉ registry.inProgress)
    (hdeclared : source.declaration? name = some declaration)
    (hheader : Header.ofDeclaration source declaration = .ok header)
    (hparent : registry.graph.Parent source config header ancestor above) :
    registry.Registers source config name
      (registry.construct source config declaration header ancestor) := by
  obtain ⟨types, props, hadds, -⟩ := construct_adds config header ancestor hdeclared hidle
  revert hadds
  rw [construct, hparent.inherited?_eq]
  cases hblueprint : Blueprint.ofDeclaration source config declaration header above.inherited? with
  | error violation => exact fun _ => .of_error h violation
  | ok blueprint =>
    intro hadds
    have hname := Blueprint.qualifiedName_of_declared hdeclared hblueprint
    have hlineage := hparent.hasLineage hdeclared hheader hblueprint
    have hplaces := hparent.places_add (Blueprint.slotsFilled_of_ofDeclaration hblueprint)
    have hrealizes := h.add (by rwa [hname]) (hname ▸ hlineage) hplaces
    refine ⟨hrealizes, ⟨types, props, hadds⟩, ?_⟩
    rintro key ⟨⟩
    refine ⟨registry.graph.placeType blueprint ancestor, ?_, rfl⟩
    rw [← hname]
    have hmem : registry.graph.placeType blueprint ancestor ∈
        (registry.graph.add blueprint ancestor).types := by simp [Graph.add]
    exact hrealizes.find?_qualifiedName hmem

/-- `Registry.resolve` registers a name, or fails and leaves whole ancestors. -/
theorem resolve_registers (h : registry.graph.Realizes source config) (name : String) :
    registry.Registers source config name (registry.resolve source config name) := by
  fun_induction Registry.resolve source config name registry with
  | case1 name registry key hkey =>
    refine ⟨h, ⟨[], [], .nil registry⟩, ?_⟩
    rintro _ ⟨⟩
    obtain ⟨type, htype, rfl⟩ := h.keyOf?_eq_some_iff.1 hkey
    exact ⟨type, h.find?_qualifiedName (List.mem_of_getElem? htype), h.key htype⟩
  | case2 | case3 | case4 => exact .of_error h _
  | case5 name registry hnew hidle declaration hdeclared header hheader hroot =>
    exact construct_registers h hnew hidle hdeclared hheader (.root hroot)
  | case6 name registry hnew hidle declaration hdeclared header hheader ancestor hancestor outcome
      violation hresult ih =>
    obtain ⟨hrealizes, ⟨types, props, hadds⟩, -⟩ := ih h
    refine ⟨hrealizes, ⟨types, props, hadds.of_enter⟩, ?_⟩
    intro key hkey
    cases hkey
  | case7 name registry hnew hidle declaration hdeclared header hheader ancestor hancestor outcome
      key hresult ih =>
    obtain ⟨hrealizes, ⟨types, props, hadds⟩, hfound⟩ := ih h
    obtain ⟨parent, hparent, rfl⟩ := hfound hresult
    have hnew' : outcome.registry.leave.graph.keyOf? name = none :=
      hadds.keyOf?_eq_none hnew (by simp [enter])
    have hadds := hadds.of_enter
    have hidle' : name ∉ outcome.registry.leave.inProgress := hadds.inProgress_eq ▸ hidle
    -- the ancestor is registered by now, so it has its place and its lineage
    obtain ⟨hmem, hname⟩ := hrealizes.find?_eq_some_iff.1 hparent
    obtain ⟨above, habove, hplaces⟩ := hrealizes.placed parent hmem
    have hleave : outcome.registry.leave.graph.Realizes source config := hrealizes
    obtain ⟨hrealizes', ⟨types', props', hadds'⟩, hfound'⟩ := construct_registers hleave hnew'
      hidle' hdeclared hheader (.under hancestor (hname ▸ habove) hplaces)
    exact ⟨hrealizes', ⟨_, _, hadds.append hadds'⟩, hfound'⟩

/-- A registered name is looked up, and nothing happens. -/
theorem resolve_eq_of_find? (h : registry.graph.Indexed) {name : String} {type : TypeNode}
    (hfound : registry.graph.find? name = some type) :
    registry.resolve source config name = ⟨.ok type.key, registry⟩ := by
  have hkey : registry.graph.keyOf? name = some type.key := by
    rw [h.keyOf?_eq, hfound, Option.map_some]
  rw [Registry.resolve, hkey]

/-- A new name with a legal header is registered after its ancestor, if it has one. -/
theorem resolve_eq_of_header {name : String} {declaration : Declaration} {header : Header}
    (hnew : registry.graph.keyOf? name = none) (hidle : name ∉ registry.inProgress)
    (hdeclared : source.declaration? name = some declaration)
    (hheader : Header.ofDeclaration source declaration = .ok header) :
    registry.resolve source config name =
      match header.ancestor with
      | none => registry.construct source config declaration header none
      | some ancestor =>
        let outcome := (registry.enter name).resolve source config ancestor
        match outcome.result with
        | .error violation => ⟨.error violation, outcome.registry.leave⟩
        | .ok key =>
          outcome.registry.leave.construct source config declaration header (some key) := by
  rw [Registry.resolve]
  simp only [hnew, dif_neg hidle]
  split
  · simp_all
  · next found hfound =>
    obtain rfl : declaration = found := Option.some.inj (hdeclared.symm.trans hfound)
    split
    · next violation hviolation => cases hheader.symm.trans hviolation
    · next other hother =>
      obtain rfl : header = other := Except.ok.inj (hheader.symm.trans hother)
      rfl

/-- A construction succeeds with the blueprint. -/
theorem construct_ok {declaration : Declaration} {header : Header} {ancestor : Option TypeKey}
    {blueprint : Blueprint}
    (h : Blueprint.ofDeclaration source config declaration header
      (ancestor.bind registry.graph.inherited?) = .ok blueprint) :
    ∃ key, (registry.construct source config declaration header ancestor).result = .ok key := by
  rw [construct, h]
  exact ⟨_, rfl⟩

/-- A name with a lineage is registered, unless something on the way is under construction. -/
theorem resolve_ok_of_hasLineage {name : String} {lineage : Lineage}
    (hlineage : source.HasLineage config name lineage)
    (h : registry.graph.Realizes source config)
    (hidle : ∀ blueprint ∈ lineage, blueprint.qualifiedName ∉ registry.inProgress) :
    ∃ key, (registry.resolve source config name).result = .ok key := by
  induction hlineage generalizing registry with
  | @root name declaration header blueprint hdeclared hheader hroot hblueprint =>
    cases hkey : registry.graph.keyOf? name with
    | some key =>
      rw [Registry.resolve, hkey]
      exact ⟨key, rfl⟩
    | none =>
      have hname : name ∉ registry.inProgress := by
        have hfirst := hidle blueprint (by simp)
        rwa [Blueprint.qualifiedName_of_declared hdeclared hblueprint] at hfirst
      rw [resolve_eq_of_header hkey hname hdeclared hheader, hroot]
      exact construct_ok hblueprint
  | @child name ancestor declaration header blueprint above hdeclared hheader hancestor habove
      hblueprint ih =>
    cases hkey : registry.graph.keyOf? name with
    | some key =>
      rw [Registry.resolve, hkey]
      exact ⟨key, rfl⟩
    | none =>
      have hself := Blueprint.qualifiedName_of_declared hdeclared hblueprint
      have hname : name ∉ registry.inProgress := hself ▸ hidle blueprint (by simp)
      -- the ancestors are not under construction: none of them is the type itself
      have hnodup := (Source.HasLineage.child hdeclared hheader hancestor habove
        hblueprint).names_nodup
      have hidle' : ∀ upper ∈ above,
          upper.qualifiedName ∉ (registry.enter name).inProgress := by
        intro upper hupper
        simp only [enter, List.mem_append, List.mem_singleton, not_or]
        refine ⟨hidle upper (List.mem_cons_of_mem _ hupper), ?_⟩
        rintro heq
        exact (List.nodup_cons.1 hnodup).1
          (List.mem_map.2 ⟨upper, hupper, heq.trans hself.symm⟩)
      have henter : (registry.enter name).graph.Realizes source config := h
      obtain ⟨key, hresult⟩ := ih henter hidle'
      obtain ⟨hrealizes, -, hfound⟩ := resolve_registers henter ancestor
      obtain ⟨parent, hparent, rfl⟩ := hfound hresult
      obtain ⟨hmem, hparentName⟩ := hrealizes.find?_eq_some_iff.1 hparent
      obtain ⟨placed, hplaced, hplaces⟩ := hrealizes.placed parent hmem
      obtain rfl := habove.unique (hparentName ▸ hplaced)
      rw [resolve_eq_of_header hkey hname hdeclared hheader, hancestor]
      simp only [hresult]
      apply construct_ok
      rw [← hblueprint, ← hplaces.inherited?_eq]
      rfl

/-- Whether a name can be registered depends on the source alone. -/
theorem resolve_ok_iff (h : registry.graph.Realizes source config)
    (hidle : registry.inProgress = []) (name : String) :
    (∃ key, (registry.resolve source config name).result = .ok key) ↔
      ∃ lineage, source.HasLineage config name lineage := by
  constructor
  · rintro ⟨key, hkey⟩
    obtain ⟨hrealizes, -, hfound⟩ := resolve_registers h name
    obtain ⟨type, htype, -⟩ := hfound hkey
    obtain ⟨hmem, rfl⟩ := hrealizes.find?_eq_some_iff.1 htype
    obtain ⟨lineage, hlineage, -⟩ := hrealizes.placed type hmem
    exact ⟨lineage, hlineage⟩
  · rintro ⟨lineage, hlineage⟩
    exact resolve_ok_of_hasLineage hlineage h (by simp [hidle])

/-- Registering names one after the other: types are added, and after a success every name is
registered. -/
theorem forEach_resolve (h : registry.graph.Realizes source config) {names : List String}
    {result : Except Violation Unit} {after : Registry}
    (hrun : forEach (resolve source config) names registry = ⟨result, after⟩) :
    after.graph.Realizes source config ∧ (∃ types props, registry.Adds types props after) ∧
      (result = .ok () → ∀ name ∈ names, (after.graph.find? name).isSome) := by
  induction names generalizing registry with
  | nil =>
    cases hrun
    exact ⟨h, ⟨[], [], .nil _⟩, by simp⟩
  | cons name names ih =>
    obtain ⟨hrealizes, ⟨types, props, hadds⟩, hfound⟩ := resolve_registers h name
    rw [forEach] at hrun
    cases hstep : registry.resolve source config name with
    | mk first middle =>
      rw [hstep] at hrealizes hadds hfound hrun
      cases first with
      | error violation =>
        cases hrun
        refine ⟨hrealizes, ⟨types, props, hadds⟩, ?_⟩
        intro hresult
        cases hresult
      | ok key =>
        obtain ⟨hrealizes', ⟨types', props', hadds'⟩, hfound'⟩ := ih hrealizes hrun
        refine ⟨hrealizes', ⟨_, _, hadds.append hadds'⟩, ?_⟩
        intro hresult other hother
        rcases List.mem_cons.1 hother with rfl | hother
        · -- the names that come later leave the type where it is
          obtain ⟨type, htype, -⟩ := hfound rfl
          have hstays := hrealizes.find?_mono hrealizes'.toIndexed hadds'.grows htype
          exact Option.isSome_iff_exists.2 ⟨type, hstays⟩
        · exact hfound' hresult other hother

/-- Names are registered one after the other exactly when each of them has a lineage. -/
theorem forEach_resolve_ok_iff (h : registry.graph.Realizes source config)
    (hidle : registry.inProgress = []) (names : List String) :
    (forEach (resolve source config) names registry).result = .ok () ↔
      ∀ name ∈ names, ∃ lineage, source.HasLineage config name lineage := by
  induction names generalizing registry with
  | nil => simp [forEach]
  | cons name names ih =>
    obtain ⟨hrealizes, ⟨types, props, hadds⟩, -⟩ := resolve_registers h name
    rw [forEach, List.forall_mem_cons, ← resolve_ok_iff h hidle name]
    cases hstep : registry.resolve source config name with
    | mk result after =>
      rw [hstep] at hrealizes hadds
      cases result with
      | error violation => simp
      | ok key => simpa using ih hrealizes (hadds.inProgress_eq.trans hidle)

/-- All names of a source are registered exactly when each of them has a lineage. -/
theorem resolveAll_ok_iff :
    (resolveAll source config {}).result = .ok () ↔
      ∀ name ∈ source.names, ∃ lineage, source.HasLineage config name lineage :=
  forEach_resolve_ok_iff .empty rfl source.names

/-- Every declaration of the source is registered and nothing was done since. -/
structure Complete (source : Source) (config : Config) (registry : Registry) : Prop where
  realizes : registry.graph.Realizes source config
  pending : ∀ prop ∈ registry.graph.props, prop.resolution = .pending
  events_eq : registry.events = registry.graph.types.map TypeNode.registered
  registered : ∀ name, (registry.graph.find? name).isSome ↔ (source.declaration? name).isSome

/-- A success in registering all names leaves a complete registry. -/
theorem resolveAll_complete (h : resolveAll source config {} = ⟨.ok (), registry⟩) :
    registry.Complete source config := by
  obtain ⟨hrealizes, ⟨types, props, hadds⟩, hfound⟩ := forEach_resolve .empty h
  refine ⟨hrealizes, ?_, ?_, ?_⟩
  · rw [hadds.props_eq]
    simpa using hadds.pending
  · rw [hadds.events_eq, hadds.types_eq]
    rfl
  · intro name
    constructor
    · exact hrealizes.isSome_declaration?
    · intro hname
      obtain ⟨declaration, hdeclared⟩ := Option.isSome_iff_exists.1 hname
      refine hfound rfl name (List.mem_append_left _ ?_)
      rw [← Source.qualifiedName_of_declaration? hdeclared]
      exact List.mem_map_of_mem (List.mem_of_find?_eq_some hdeclared)

/-- Every property is pending, and what it refers to is registered if it is declared. -/
structure Linked (source : Source) (config : Config) (registry : Registry) : Prop where
  realizes : registry.graph.Realizes source config
  pending : ∀ prop ∈ registry.graph.props, prop.resolution = .pending
  registered : ∀ {key : PropKey} {prop : Property}, registry.graph.prop? key = some prop →
    (source.declaration? prop.type.innermost).isSome →
    (registry.graph.find? prop.type.innermost).isSome

theorem Complete.linked (h : registry.Complete source config) : registry.Linked source config :=
  ⟨h.realizes, h.pending, fun _ hdeclared => (h.registered _).2 hdeclared⟩

/-- In a linked registry every property refers to a registered type, or to none. -/
theorem Linked.reference_eq (h : registry.Linked source config) {key : PropKey} {prop : Property}
    (hprop : registry.graph.prop? key = some prop) :
    prop.reference =
      (registry.graph.find? prop.type.innermost).map fun _ => prop.type.innermost := by
  have hregistered := h.registered hprop
  have hdeclared : (registry.graph.find? prop.type.innermost).isSome →
      (source.declaration? prop.type.innermost).isSome := h.realizes.isSome_declaration?
  rw [h.realizes.reference_eq hprop]
  cases hfound : registry.graph.find? prop.type.innermost <;>
    cases hsource : source.declaration? prop.type.innermost <;> simp_all

end Registry

end Metamodel
