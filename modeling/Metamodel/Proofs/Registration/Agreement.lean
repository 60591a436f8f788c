import Metamodel.Proofs.Registration

/-!
# Registrations that agree

What the registration of a name does depends on its lineage alone. Two sources, or one source under
two configurations, that give a name the same lineage register it alike, from whatever registry
(`Registry.resolve_eq_of_hasLineage`).
-/

namespace Metamodel

variable {source other : Source} {config config' : Config}

/-- A construction with the blueprint adds its type. -/
theorem Registry.construct_eq_of_blueprint {registry : Registry} {declaration : Declaration}
    {header : Header} {ancestor : Option TypeKey} {blueprint : Blueprint}
    (h : Blueprint.ofDeclaration source config declaration header
      (ancestor.bind registry.graph.inherited?) = .ok blueprint) :
    registry.construct source config declaration header ancestor =
      ⟨.ok registry.graph.nextTypeKey,
        { registry with graph := registry.graph.add blueprint ancestor }.record
          (.typeRegistered blueprint.qualifiedName blueprint.category blueprint.props.length)⟩ := by
  rw [construct, h]

/-- A name that is registered or under construction is looked up without asking the source. -/
theorem Registry.resolve_eq_of_known {registry : Registry} {name : String}
    (h : (registry.graph.keyOf? name).isSome ∨ name ∈ registry.inProgress) :
    registry.resolve source config name = registry.resolve other config' name := by
  rw [Registry.resolve, Registry.resolve]
  cases hkey : registry.graph.keyOf? name with
  | some key => rfl
  | none =>
    have hbusy : name ∈ registry.inProgress := h.resolve_left (by simp [hkey])
    simp only [dif_pos hbusy]

/-- Any other name is new and idle. -/
theorem Registry.known_or_new (registry : Registry) (name : String) :
    ((registry.graph.keyOf? name).isSome ∨ name ∈ registry.inProgress) ∨
      registry.graph.keyOf? name = none ∧ name ∉ registry.inProgress := by
  cases registry.graph.keyOf? name with
  | some key => exact .inl (.inl rfl)
  | none => exact (Classical.em (name ∈ registry.inProgress)).imp .inr fun hidle => ⟨rfl, hidle⟩

/-- A lineage of one blueprint is that of a declaration without ancestor. -/
theorem Source.HasLineage.root_inv {name : String} {blueprint : Blueprint}
    (h : source.HasLineage config name [blueprint]) :
    ∃ declaration header, source.declaration? name = some declaration ∧
      Header.ofDeclaration source declaration = .ok header ∧ header.ancestor = none ∧
      Blueprint.ofDeclaration source config declaration header none = .ok blueprint := by
  cases h with
  | root hdeclared hheader hroot hblueprint => exact ⟨_, _, hdeclared, hheader, hroot, hblueprint⟩
  | child _ _ _ habove _ => exact nomatch habove

/-- A longer lineage is that of a declaration under its ancestor. -/
theorem Source.HasLineage.child_inv {name ancestor : String} {blueprint : Blueprint}
    {above : Lineage} (h : source.HasLineage config name (blueprint :: above))
    (habove : other.HasLineage config' ancestor above) :
    ∃ declaration header, source.declaration? name = some declaration ∧
      Header.ofDeclaration source declaration = .ok header ∧ header.ancestor = some ancestor ∧
      source.HasLineage config ancestor above ∧
      Blueprint.ofDeclaration source config declaration header above.inherited? =
        .ok blueprint := by
  obtain ⟨upper, rest, rfl, hname⟩ := habove.head
  cases h with
  | child hdeclared hheader hancestor hupper hblueprint =>
    obtain ⟨_, _, heq, hname'⟩ := hupper.head
    cases heq
    obtain rfl := hname.symm.trans hname'
    exact ⟨_, _, hdeclared, hheader, hancestor, hupper, hblueprint⟩

/-- A name is registered alike where it has the same lineage. -/
theorem Registry.resolve_eq_of_hasLineage {registry : Registry} {name : String} {lineage : Lineage}
    (h : source.HasLineage config name lineage) (h' : other.HasLineage config' name lineage)
    (hrealizes : registry.graph.Realizes source config) :
    registry.resolve other config' name = registry.resolve source config name := by
  induction h generalizing registry with
  | @root name declaration header blueprint hdeclared hheader hroot hblueprint =>
    rcases registry.known_or_new name with hknown | ⟨hnew, hidle⟩
    · exact resolve_eq_of_known hknown
    · obtain ⟨declaration', header', hdeclared', hheader', hroot', hblueprint'⟩ := h'.root_inv
      rw [resolve_eq_of_header hnew hidle hdeclared hheader, hroot,
        resolve_eq_of_header hnew hidle hdeclared' hheader', hroot']
      exact (construct_eq_of_blueprint hblueprint').trans
        (construct_eq_of_blueprint hblueprint).symm
  | @child name ancestor declaration header blueprint above hdeclared hheader hancestor habove
      hblueprint ih =>
    rcases registry.known_or_new name with hknown | ⟨hnew, hidle⟩
    · exact resolve_eq_of_known hknown
    · obtain ⟨declaration', header', hdeclared', hheader', hancestor', habove', hblueprint'⟩ :=
        h'.child_inv habove
      have henter : (registry.enter name).graph.Realizes source config := hrealizes
      have hsame := ih habove' henter
      rw [resolve_eq_of_header hnew hidle hdeclared hheader, hancestor,
        resolve_eq_of_header hnew hidle hdeclared' hheader', hancestor']
      simp only [hsame]
      cases hresult : ((registry.enter name).resolve source config ancestor).result with
      | error violation => rfl
      | ok key =>
        -- the ancestor is registered by now, and lends what its lineage lends
        obtain ⟨hrealizes', -, hfound⟩ := resolve_registers henter ancestor
        obtain ⟨parent, hparent, rfl⟩ := hfound hresult
        obtain ⟨hmem, hname⟩ := hrealizes'.find?_eq_some_iff.1 hparent
        obtain ⟨placed, hplaced, hplaces⟩ := hrealizes'.placed parent hmem
        obtain rfl := habove.unique (hname ▸ hplaced)
        rw [← hplaces.inherited?_eq] at hblueprint hblueprint'
        exact (construct_eq_of_blueprint hblueprint').trans
          (construct_eq_of_blueprint hblueprint).symm

/-- So are names one after the other. -/
theorem Registry.forEach_resolve_eq {registry : Registry} {names : List String}
    (h : ∀ name ∈ names, ∃ lineage, source.HasLineage config name lineage ∧
      other.HasLineage config' name lineage)
    (hrealizes : registry.graph.Realizes source config) :
    forEach (resolve other config') names registry =
      forEach (resolve source config) names registry := by
  induction names generalizing registry with
  | nil => rfl
  | cons name names ih =>
    obtain ⟨hname, hnames⟩ := List.forall_mem_cons.1 h
    obtain ⟨lineage, hlineage, hlineage'⟩ := hname
    obtain ⟨hrealizes', -, -⟩ := resolve_registers hrealizes name
    rw [forEach, forEach, resolve_eq_of_hasLineage hlineage hlineage' hrealizes]
    cases hstep : registry.resolve source config name with
    | mk result after =>
      rw [hstep] at hrealizes'
      cases result with
      | error violation => rfl
      | ok key => exact ih hnames hrealizes'

/-- Two lists of names are registered one after the other. -/
theorem Registry.forEach_append_eq_ok_iff {α κ : Type} {step : κ → Registry → Outcome α}
    {items rest : List κ} {registry last : Registry} :
    forEach step (items ++ rest) registry = ⟨.ok (), last⟩ ↔
      ∃ middle, forEach step items registry = ⟨.ok (), middle⟩ ∧
        forEach step rest middle = ⟨.ok (), last⟩ := by
  induction items generalizing registry with
  | nil => simp [forEach]
  | cons item items ih =>
    rw [List.cons_append, forEach, forEach]
    cases step item registry with
    | mk result after =>
      cases result with
      | error violation => simp
      | ok value => exact ih

/-- Names that are registered are passed over. -/
theorem Registry.forEach_resolve_of_registered {registry : Registry} {names : List String}
    (hindexed : registry.graph.Indexed)
    (h : ∀ name ∈ names, (registry.graph.find? name).isSome) :
    forEach (resolve source config) names registry = ⟨.ok (), registry⟩ := by
  induction names with
  | nil => rfl
  | cons name names ih =>
    obtain ⟨hname, hnames⟩ := List.forall_mem_cons.1 h
    obtain ⟨type, htype⟩ := Option.isSome_iff_exists.1 hname
    rw [forEach, resolve_eq_of_find? hindexed htype]
    exact ih hnames

end Metamodel
