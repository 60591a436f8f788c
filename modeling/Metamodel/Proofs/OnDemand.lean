import Metamodel.Proofs.Linking
import Metamodel.Proofs.Reordering

/-!
# Compilation on demand

A registry may register only some of the names of a source, link what these refer to, and settle
what it has. Linking makes of it a part of the compiled graph: nothing that its properties refer to
is missing, so that no path ever leaves it and whatever can settle in the whole can settle in the
part. Hence it comes to an end where the compilation does, and everything it has is as in the
compiled graph, but for keys and rounds (`compile_onDemand`).
-/

namespace Metamodel

variable {source : Source} {config : Config}

namespace Graph

variable {graph : Graph} {key : PropKey} {prop : Property}

/-- A property is the one that is found under its label. -/
theorem Realizes.propViewOf?_eq (h : graph.Realizes source config)
    (hkey : graph.prop? key = some prop) :
    graph.propViewOf? (graph.propView prop).label = some (graph.propView prop) := by
  have hlabel {key : PropKey} {prop : Property} (hkey : graph.prop? key = some prop) :
      graph.label key = ⟨graph.typeName prop.declaringType, prop.name⟩ := by
    rw [label, hkey]
  rw [propViewOf?]
  cases hfound : graph.props.find? fun other =>
      (⟨graph.typeName other.declaringType, other.name⟩ : PropLabel) =
        (graph.propView prop).label with
  | none =>
    have hother := List.find?_eq_none.1 hfound prop (List.mem_of_getElem? hkey)
    simp [propView] at hother
  | some found =>
    obtain ⟨other, hother⟩ := exists_prop?_eq_some (List.mem_of_find?_eq_some hfound)
    have hsame : graph.label other = graph.label key := by
      rw [hlabel hother, hlabel hkey]
      simpa [propView] using List.find?_some hfound
    obtain rfl := h.key_eq_of_label hother hkey hsame
    obtain rfl := Option.some.inj (hother.symm.trans hkey)
    rfl

end Graph

namespace Registry

variable {registry linked : Registry}

/-- A linked registry is part of a complete one. -/
theorem Linked.partOf (h : linked.Linked source config)
    (hcomplete : registry.Complete source config) :
    Graph.PartOf source config linked.graph registry.graph where
  left := h.realizes
  right := hcomplete.realizes
  known := by
    intro key key' prop prop' hkey _ hspec
    rw [show prop'.type = prop.type from congrArg PropSpec.type hspec, hcomplete.registered]
    exact ⟨h.realizes.isSome_declaration?, h.registered hkey⟩
  names name hname := (hcomplete.registered name).2 (h.realizes.isSome_declaration? hname)

end Registry

/-- Where the whole can be settled, so can a part. -/
theorem Graph.PartOf.resolveRounds_ok {registry : Registry} {whole : Graph}
    (h : Graph.PartOf source config registry.graph whole) (hhealthy : registry.graph.Healthy)
    (hall : whole.Settleable) (hgrounded : ∀ key, whole.Grounded key) :
    ∃ rounds last, registry.resolveRounds = ⟨.ok rounds, last⟩ := by
  obtain ⟨hassociations, hpaths⟩ := Graph.settleable_iff.1 hall
  have hall' : registry.graph.Settleable :=
    Graph.settleable_iff.2 ⟨h.associationsReachEntities hassociations, h.pathsNavigable hpaths⟩
  refine Registry.resolveRounds_exists_ok hhealthy hall' fun key => ?_
  cases hkey : registry.graph.prop? key with
  | none => exact Graph.grounded_of_prop?_eq_none hkey
  | some prop =>
    obtain ⟨key', hsame⟩ := h.exists_key hkey
    exact h.symm.grounded hsame.symm (hgrounded key')

/-- Where a source compiles, any of its declared names can be registered alone. To link what they
refer to and to settle what there is then succeeds as well, and every type and every property there
is what it is in the compiled graph, once keys are replaced by names. -/
theorem compile_onDemand {model : Model} (h : compile source config = .ok model)
    {names : List String} (hnames : ∀ name ∈ names, name ∈ source.declarations.names) :
    ∃ resolved linked settled rounds,
      Registry.forEach (Registry.resolve source config) names {} = ⟨.ok (), resolved⟩ ∧
      resolved.linkTargets source config = ⟨.ok (), linked⟩ ∧
      linked.resolveRounds = ⟨.ok rounds, settled⟩ ∧
      (∀ name ∈ names, (settled.graph.find? name).isSome) ∧
      (∀ type ∈ settled.graph.types,
        model.graph.viewOf? type.qualifiedName = some (settled.graph.typeView type)) ∧
      ∀ prop ∈ settled.graph.props,
        model.graph.propViewOf? (settled.graph.propView prop).label =
          some (settled.graph.propView prop) := by
  obtain ⟨registry, registered⟩ := exists_registered_of_compile h
  have hcomplete := Registry.resolveAll_complete registered
  obtain ⟨hfresh, hhealthy, hpending⟩ := compile_settled registered h
  obtain ⟨hall, hgrounded⟩ := (exists_compile_ok_iff registered).1 ⟨model, h⟩
  have hlegal : ∀ name, name ∈ source.declarations.names →
      ∃ lineage, source.HasLineage config name lineage := by
    intro name hname
    refine Registry.resolveAll_ok_iff.1 ?_ name (List.mem_append_left _ hname)
    rw [registered]
  -- the names are registered one after the other
  have hempty : ({} : Registry).graph.Realizes source config := .empty
  have hresult := (Registry.forEach_resolve_ok_iff hempty rfl names).2
    fun name hname => hlegal name (hnames name hname)
  obtain ⟨resolved, hresolved⟩ : ∃ resolved,
      Registry.forEach (Registry.resolve source config) names {} = ⟨.ok (), resolved⟩ :=
    ⟨_, by rw [← hresult]⟩
  obtain ⟨hrealizes, ⟨types, props, hadds⟩, hfound⟩ := Registry.forEach_resolve hempty hresolved
  -- then what they refer to
  obtain ⟨linked, hlinking, hlinked, hgrows⟩ := Registry.linkTargets_linked
    (fun name hname => by
      obtain ⟨declaration, hdeclared⟩ := Option.isSome_iff_exists.1 hname
      obtain ⟨hmem, rfl⟩ := DeclarationSet.find?_eq_some_iff.1 hdeclared
      exact hlegal _ (List.mem_map_of_mem hmem))
    hrealizes hadds.inProgress_eq (by rw [hadds.props_eq]; simpa using hadds.pending)
  -- and then everything is settled
  have hpart := hlinked.partOf hcomplete
  obtain ⟨rounds, settled, hrounds⟩ := hpart.resolveRounds_ok hlinked.healthy hall hgrounded
  obtain ⟨hproceeds, hpending'⟩ :=
    Registry.resolveRounds_ok hlinked.healthy.regular.declared hrounds
  have hhealthy' := Graph.healthy_of_proceeds hproceeds hlinked.healthy
  have hfresh' := (Graph.advances_of_proceeds hproceeds).fresh_eq
  have hparts := hpart.congr hfresh' hfresh
  refine ⟨resolved, linked, settled, rounds, hresolved, hlinking, hrounds, ?_, ?_, ?_⟩
  · intro name hname
    obtain ⟨type, htype⟩ := Option.isSome_iff_exists.1 (hfound rfl name hname)
    rw [← Graph.find?_congr hfresh', hrealizes.find?_mono hlinked.realizes.toIndexed hgrows htype]
    rfl
  · intro type htype
    obtain ⟨type', hfound', htwins⟩ := hparts.find? (hparts.left.find?_qualifiedName htype)
    rw [Graph.viewOf?, hfound', Option.map_some, htwins.typeView_eq]
  · intro prop hprop
    obtain ⟨key, hkey⟩ := Graph.exists_prop?_eq_some hprop
    obtain ⟨key', hsame⟩ := hparts.exists_key hkey
    obtain ⟨prop', -, -, hkey', -⟩ := hparts.prop? hsame hkey
    rw [← hparts.propView_eq hhealthy' hhealthy hpending' hpending hsame hkey hkey']
    exact hparts.right.propViewOf?_eq hkey'

/-- Orders of customers, and notes that have nothing to do with them. -/
def ordersAndNotes : Source :=
  orders.withDeclarations {
    toList := {
        simpleName := "Note"
        tags := [.entity none]
        members := [
          { name := "id", type := .named "int", tags := [.id] },
          { name := "text", type := .named "string" }] } ::
      orders.declarations.toList
    names_nodup := by decide }

theorem compile_onDemand_orders :
    ∃ model resolved linked settled rounds, compile ordersAndNotes {} = .ok model ∧
      "Order" ∈ ordersAndNotes.declarations.names ∧
      Registry.forEach (Registry.resolve ordersAndNotes {}) ["Order"] {} = ⟨.ok (), resolved⟩ ∧
      resolved.linkTargets ordersAndNotes {} = ⟨.ok (), linked⟩ ∧
      linked.resolveRounds = ⟨.ok rounds, settled⟩ ∧
      model.graph.types.map (·.qualifiedName) = ["Note", "Order", "Customer"] ∧
      resolved.graph.types.map (·.qualifiedName) = ["Order"] ∧
      settled.graph.types.map (·.qualifiedName) = ["Order", "Customer"] ∧
      ∀ prop ∈ settled.graph.props,
        model.graph.propViewOf? (settled.graph.propView prop).label =
          some (settled.graph.propView prop) := by
  have hmodel : (compile ordersAndNotes {}).map (·.graph.types.map (·.qualifiedName)) =
      .ok ["Note", "Order", "Customer"] := by decide +kernel
  rw [Except.map_eq_ok_iff] at hmodel
  obtain ⟨model, hmodel, htypes⟩ := hmodel
  have hnames : ∀ name ∈ ["Order"], name ∈ ordersAndNotes.declarations.names := by decide
  obtain ⟨resolved, linked, settled, rounds, hresolved, hlinked, hsettled, -, -, hprops⟩ :=
    compile_onDemand hmodel hnames
  have hfirst : (Registry.forEach (Registry.resolve ordersAndNotes {}) ["Order"]
      {}).registry.graph.types.map (·.qualifiedName) = ["Order"] := by decide +kernel
  have hlast : ((Registry.forEach (Registry.resolve ordersAndNotes {}) ["Order"]
      {}).registry.linkTargets ordersAndNotes {}).registry.resolveRounds.registry.graph.types.map
      (·.qualifiedName) = ["Order", "Customer"] := by decide +kernel
  rw [hresolved] at hfirst hlast
  rw [hlinked, hsettled] at hlast
  exact ⟨model, resolved, linked, settled, rounds, hmodel, hnames _ List.mem_cons_self, hresolved,
    hlinked, hsettled, htypes, hfirst, hlast, hprops⟩

end Metamodel
