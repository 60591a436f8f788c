import Mathlib.Data.List.Perm.Basic
import Metamodel.Proofs.Declaration.Set
import Metamodel.Proofs.Graph.Twins
import Metamodel.Proofs.Lineage.Agreement
import Metamodel.Proofs.Settlement

/-!
# Independence of the order of declarations

A source is asked for declarations by name, so their order only decides in which order types are
registered. Whether a compilation succeeds does not depend on it, and neither does the compiled
graph once keys are replaced by names (`compile_reorder`).
-/

namespace Metamodel

namespace Source

/-- The source with other declarations. -/
def withDeclarations (source : Source) (declarations : DeclarationSet) : Source :=
  { source with declarations }

/-- Two sources answer all questions in the same way. -/
structure Agrees (source other : Source) : Prop where
  declaration?_eq : source.declaration? = other.declaration?
  isImmutable_eq : source.isImmutable = other.isImmutable
  mem_names : ∀ name, name ∈ source.names ↔ name ∈ other.names

/-- A source answers in the same way whatever the order of its declarations. -/
theorem agrees_withDeclarations {source : Source} {declarations : DeclarationSet}
    (h : source.declarations.toList.Perm declarations.toList) :
    source.Agrees (source.withDeclarations declarations) := by
  have hfind : source.declarations.find? = declarations.find? := by
    funext name
    refine Option.ext fun declaration => ?_
    rw [DeclarationSet.find?_eq_some_iff, DeclarationSet.find?_eq_some_iff, h.mem_iff]
  refine ⟨hfind, ?_, ?_⟩
  · funext name
    simp only [isImmutable, DeclarationSet.contains, hfind, withDeclarations]
  · intro name
    have hnames : source.declarations.names.Perm declarations.names :=
      h.map Declaration.qualifiedName
    simp only [names, withDeclarations, List.mem_append, hnames.mem_iff]

namespace Agrees

variable {source other : Source} {config : Config} (h : source.Agrees other)
include h

theorem symm : other.Agrees source :=
  ⟨h.declaration?_eq.symm, h.isImmutable_eq.symm, fun name => (h.mem_names name).symm⟩

/-- Sources that agree do so about all names. -/
theorem within : source.AgreesWithin other fun _ => True where
  declaration?_eq name _ := congrFun h.declaration?_eq name
  on _ _ := ⟨fun _ _ => congrFun h.isImmutable_eq _, fun _ _ => congrFun h.declaration?_eq _⟩
  closed _ _ _ _ := trivial

/-- Sources that agree give names the same lineages. -/
theorem hasLineage {name : String} {lineage : Lineage}
    (hlineage : source.HasLineage config name lineage) :
    other.HasLineage config name lineage :=
  h.within.hasLineage trivial hlineage

/-- A graph that realizes one source realizes all that agree with it. -/
theorem realizes {graph : Graph} (hgraph : graph.Realizes source config) :
    graph.Realizes other config where
  toIndexed := hgraph.toIndexed
  names_nodup := hgraph.names_nodup
  declared := hgraph.declared
  placed type htype := by
    obtain ⟨lineage, hlineage, hplaces⟩ := hgraph.placed type htype
    exact ⟨lineage, h.hasLineage hlineage, hplaces⟩

end Agrees

end Source

namespace Graph.Counterparts

variable {source : Source} {config : Config} {graph other : Graph}

/-- Resolution keeps counterparts. -/
theorem congr (h : Counterparts source config graph other) {after after' : Graph}
    (hfresh : graph.fresh = after.fresh) (hfresh' : other.fresh = after'.fresh) :
    Counterparts source config after after' where
  left := h.left.of_fresh_eq hfresh
  right := h.right.of_fresh_eq hfresh'
  names name := by
    rw [← find?_congr hfresh, ← find?_congr hfresh']
    exact h.names name

/-- The same names are registered, if in another order. -/
theorem names_perm (h : Counterparts source config graph other) :
    (graph.types.map (·.qualifiedName)).Perm (other.types.map (·.qualifiedName)) := by
  refine (List.perm_ext_iff_of_nodup h.left.names_nodup h.right.names_nodup).2 fun name => ?_
  have hregistered {graph : Graph} (hgraph : graph.Realizes source config) :
      name ∈ graph.types.map (·.qualifiedName) ↔ (graph.find? name).isSome := by
    rw [← not_iff_not, ← hgraph.keyOf?_eq_none_iff, hgraph.keyOf?_eq, Option.map_eq_none_iff,
      Option.not_isSome_iff_eq_none]
  rw [hregistered h.left, hregistered h.right, h.names name]

/-- Counterparts have the same views of their types, if in another order. -/
theorem typeViews_perm (h : Counterparts source config graph other) :
    (graph.types.map graph.typeView).Perm (other.types.map other.typeView) := by
  have hleft : (graph.types.map graph.typeView).map some =
      (graph.types.map (·.qualifiedName)).map other.viewOf? := by
    rw [List.map_map, List.map_map]
    refine List.map_congr_left fun type htype => ?_
    obtain ⟨type', hfound, htwins⟩ := h.partOf.find? (h.left.find?_qualifiedName htype)
    simp [viewOf?, hfound, htwins.typeView_eq]
  have hright : (other.types.map other.typeView).map some =
      (other.types.map (·.qualifiedName)).map other.viewOf? := by
    rw [List.map_map, List.map_map]
    refine List.map_congr_left fun type htype => ?_
    simp [viewOf?, h.right.find?_qualifiedName htype]
  rw [← List.map_perm_map_iff (fun _ _ => Option.some.inj), hleft, hright]
  exact h.names_perm.map _

/-- The properties of a graph are those of its types, looked up by name. -/
theorem map_props (hgraph : graph.Realizes source config) {α : Type} (f : Property → α) :
    (graph.props.map f).map some =
      (graph.types.map (·.qualifiedName)).flatMap fun name =>
        (((graph.find? name).map (·.declared)).getD []).map fun key =>
          (graph.prop? key).map f := by
  have hkeys : graph.propKeys.map (fun key => (graph.prop? key).map f) =
      (graph.props.map f).map some := by
    apply List.ext_getElem
    · simp [propKeys]
    · intro index hleft hright
      simp only [List.length_map] at hright
      simp [propKeys, Graph.prop?, List.getElem?_eq_getElem hright]
  rw [← hkeys, ← hgraph.declared, List.map_flatMap, List.flatMap_map]
  refine List.flatMap_congr fun type htype => ?_
  rw [hgraph.find?_qualifiedName htype]
  rfl

/-- Counterparts whose properties have the same views have the same views of all properties, if in
another order. -/
theorem propViews_perm (h : Counterparts source config graph other)
    (hviews : ∀ {key key' : PropKey} {prop prop' : Property},
      other.named? key' = graph.named? key → graph.prop? key = some prop →
      other.prop? key' = some prop' → other.propView prop' = graph.propView prop) :
    (graph.props.map graph.propView).Perm (other.props.map other.propView) := by
  have hkey {key key' : PropKey} (hsame : other.named? key' = graph.named? key) :
      (graph.prop? key).map graph.propView = (other.prop? key').map other.propView := by
    cases hprop : graph.prop? key with
    | none =>
      rw [named?, named?, hprop, Option.map_none, Option.map_eq_none_iff] at hsame
      rw [hsame]
      rfl
    | some prop =>
      obtain ⟨prop', -, -, hprop', -⟩ := h.partOf.prop? hsame hprop
      rw [hprop', Option.map_some, Option.map_some, hviews hsame hprop hprop']
  -- type by type the declared properties have the same views in the same order
  rw [← List.map_perm_map_iff (fun _ _ => Option.some.inj), map_props h.left, map_props h.right]
  refine (List.Perm.flatMap_right _ h.names_perm).trans (List.Perm.of_eq ?_)
  refine List.flatMap_congr fun name _ => ?_
  rcases h.partOf.find?_cases (h.names name) with
    ⟨hnone, hnone'⟩ | ⟨type, type', hfound, hfound', htwins⟩
  · rw [hnone, hnone']
    rfl
  · have hdeclared := htwins.map_declared
    rw [hfound, hfound']
    simp only [Option.map_some, Option.getD_some]
    generalize type.declared = keys at hdeclared
    generalize type'.declared = keys' at hdeclared
    rw [← List.forall₂_eq_eq_eq, List.forall₂_map_left_iff,
      List.forall₂_map_right_iff] at hdeclared ⊢
    exact hdeclared.flip.imp fun _ _ hsame => hkey hsame

end Graph.Counterparts

namespace Graph.Compatible

variable {source : Source} {config : Config} {graph other : Graph}

/-- Counterparts have the same labels. -/
theorem map_label {keys keys' : List PropKey}
    (hsames : keys'.map other.named? = keys.map graph.named?) :
    keys'.map other.label = keys.map graph.label := by
  have hlabel (graph : Graph) (keys : List PropKey) : keys.map graph.label =
      (keys.map graph.named?).map fun named => (named.map LineageProp.label).getD ⟨"", ""⟩ := by
    rw [List.map_map]
    exact List.map_congr_left fun key _ => graph.label_eq_named? key
  rw [hlabel, hlabel graph, hsames]

/-- The same paths lead to the same dependencies, in names. -/
theorem map_pathView (h : Compatible source config graph other) (hregular : other.Regular)
    {type type' : TypeNode} (htwins : graph.Twins other type type') {paths : List String}
    {dependencies dependencies' : List PropPath}
    (hfollow : List.Forall₂ (graph.Follows type.key) paths dependencies)
    (hfollow' : List.Forall₂ (other.Follows type'.key) paths dependencies') :
    dependencies'.map other.pathView = dependencies.map graph.pathView := by
  induction hfollow generalizing dependencies' with
  | nil =>
    cases hfollow'
    rfl
  | cons hfirst _ ih =>
    cases hfollow' with
    | cons hfirst' hrest' =>
      obtain ⟨hraw, hnavigates⟩ := hfirst
      obtain ⟨hraw', hnavigates'⟩ := hfirst'
      obtain ⟨keys, hkeys, hsames⟩ := h.navigates hnavigates rfl htwins
      rw [hkeys.unique hregular hnavigates'] at hsames
      rw [List.map_cons, List.map_cons, ih hrest', pathView, pathView, hraw, hraw',
        map_label hsames]

/-- Where everything is settled, counterparts have the same views. -/
theorem propView_eq (h : Compatible source config graph other) (hhealthy : graph.Healthy)
    (hhealthy' : other.Healthy) (hpending : graph.pending = []) (hpending' : other.pending = [])
    {key key' : PropKey} {prop prop' : Property} (hsame : other.named? key' = graph.named? key)
    (hkey : graph.prop? key = some prop) (hkey' : other.prop? key' = some prop') :
    other.propView prop' = graph.propView prop := by
  obtain ⟨found, type, type', hfound, hspec, htwins, howner, howner'⟩ := h.prop? hsame hkey
  obtain rfl := Option.some.inj (hkey'.symm.trans hfound)
  obtain ⟨_, target, dependencies, hresolved, hsettles, -⟩ := hhealthy.resolved hpending hkey
  obtain ⟨_, target', dependencies', hresolved', hsettles', -⟩ :=
    hhealthy'.resolved hpending' hkey'
  have htarget : target'.map other.typeName = target.map graph.typeName := by
    rw [show target' = _ from hsettles'.target, show target = _ from hsettles.target,
      h.map_link? hkey hkey' hspec]
  have hdependencies : dependencies'.map other.pathView = dependencies.map graph.pathView := by
    have hfollow := hsettles.dependencies
    have hfollow' := hsettles'.dependencies
    rw [howner] at hfollow
    rw [howner', hspec] at hfollow'
    exact h.map_pathView hhealthy'.regular htwins hfollow hfollow'
  rw [propView, propView, hspec, hresolved, hresolved', howner, howner', htwins.typeName_eq]
  simp only [Resolution.name, Resolution.state, Resolution.target?, Resolution.dependencies,
    htarget, hdependencies]

end Graph.Compatible

namespace Source.Agrees

variable {source other : Source} {config : Config}

/-- The graphs that sources register are counterparts, if the sources agree. -/
theorem counterparts (h : source.Agrees other) {registry registry' : Registry}
    (registered : Registry.resolveAll source config {} = ⟨.ok (), registry⟩)
    (registered' : Registry.resolveAll other config {} = ⟨.ok (), registry'⟩) :
    Graph.Counterparts source config registry.graph registry'.graph := by
  have hcomplete := Registry.resolveAll_complete registered
  have hcomplete' := Registry.resolveAll_complete registered'
  refine ⟨hcomplete.realizes, h.symm.realizes hcomplete'.realizes, fun name => ?_⟩
  rw [hcomplete.registered, hcomplete'.registered, h.declaration?_eq]

/-- Declarations can be registered from both of two sources that agree or from neither. -/
theorem exists_registered (h : source.Agrees other) {registry : Registry}
    (registered : Registry.resolveAll source config {} = ⟨.ok (), registry⟩) :
    ∃ registry', Registry.resolveAll other config {} = ⟨.ok (), registry'⟩ := by
  have hresult : (Registry.resolveAll other config {}).result = .ok () := by
    refine Registry.resolveAll_ok_iff.2 fun name hname => ?_
    have hsource : (Registry.resolveAll source config {}).result = .ok () := by rw [registered]
    obtain ⟨lineage, hlineage⟩ :=
      Registry.resolveAll_ok_iff.1 hsource name ((h.mem_names name).2 hname)
    exact ⟨lineage, h.hasLineage hlineage⟩
  exact ⟨(Registry.resolveAll other config {}).registry, by rw [← hresult]⟩

/-- Both of two sources that agree compile, or neither does. -/
theorem exists_compile_ok (h : source.Agrees other) {model : Model}
    (hmodel : compile source config = .ok model) :
    ∃ model', compile other config = .ok model' := by
  obtain ⟨registry, registered⟩ := exists_registered_of_compile hmodel
  obtain ⟨registry', registered'⟩ := h.exists_registered registered
  have hcounterparts := h.counterparts registered registered'
  obtain ⟨hall, hgrounded⟩ := (exists_compile_ok_iff registered).1 ⟨model, hmodel⟩
  obtain ⟨hassociations, hpaths⟩ := Graph.settleable_iff.1 hall
  refine (exists_compile_ok_iff registered').2 ⟨Graph.settleable_iff.2 ⟨?_, ?_⟩, fun key' => ?_⟩
  · exact hcounterparts.symm.partOf.associationsReachEntities hassociations
  · exact hcounterparts.symm.partOf.pathsNavigable hpaths
  · -- what is waited for on one side is waited for on the other
    cases hkey' : registry'.graph.prop? key' with
    | none => exact Graph.grounded_of_prop?_eq_none hkey'
    | some prop' =>
      obtain ⟨key, hsame⟩ := hcounterparts.symm.partOf.exists_key hkey'
      exact hcounterparts.partOf.grounded hsame.symm (hgrounded key)

end Source.Agrees

/-- The order of declarations does not matter. Sources that differ in nothing else both compile or
both fail to, and where they compile the graphs have the same types and the same properties once
keys are replaced by names. -/
theorem compile_reorder {source : Source} {declarations : DeclarationSet}
    (h : source.declarations.toList.Perm declarations.toList) (config : Config) :
    ((∃ model, compile source config = .ok model) ↔
      ∃ model, compile (source.withDeclarations declarations) config = .ok model) ∧
    ∀ model other, compile source config = .ok model →
      compile (source.withDeclarations declarations) config = .ok other →
      (model.graph.types.map model.graph.typeView).Perm
        (other.graph.types.map other.graph.typeView) ∧
      (model.graph.props.map model.graph.propView).Perm
        (other.graph.props.map other.graph.propView) := by
  have hagrees := Source.agrees_withDeclarations h
  constructor
  · constructor
    · rintro ⟨model, hmodel⟩
      exact hagrees.exists_compile_ok hmodel
    · rintro ⟨model, hmodel⟩
      exact hagrees.symm.exists_compile_ok hmodel
  · intro model other hmodel hother
    obtain ⟨registry, registered⟩ := exists_registered_of_compile hmodel
    obtain ⟨registry', registered'⟩ := exists_registered_of_compile hother
    obtain ⟨hfresh, hhealthy, hpending⟩ := compile_settled registered hmodel
    obtain ⟨hfresh', hhealthy', hpending'⟩ := compile_settled registered' hother
    have hcounterparts := (hagrees.counterparts registered registered').congr hfresh hfresh'
    refine ⟨hcounterparts.typeViews_perm, hcounterparts.propViews_perm ?_⟩
    intro key key' prop prop' hsame hkey hkey'
    exact hcounterparts.partOf.propView_eq hhealthy hhealthy' hpending hpending' hsame hkey hkey'

/-- The declarations of `orders` the other way round: customers come before their orders. -/
def customersFirst : DeclarationSet where
  toList := orders.declarations.toList.reverse
  names_nodup := by decide

theorem compile_reorder_orders :
    customersFirst.toList ≠ orders.declarations.toList ∧
      orders.declarations.toList.Perm customersFirst.toList ∧
      ∃ model other, compile orders {} = .ok model ∧
        compile (orders.withDeclarations customersFirst) {} = .ok other ∧
        (model.graph.types.map model.graph.typeView).Perm
          (other.graph.types.map other.graph.typeView) := by
  have hperm : orders.declarations.toList.Perm customersFirst.toList :=
    (List.reverse_perm _).symm
  have hsuccess : (compile orders {}).isOk = true := by decide +kernel
  obtain ⟨hboth, hviews⟩ := compile_reorder hperm {}
  cases hmodel : compile orders {} with
  | error violation =>
    rw [hmodel] at hsuccess
    cases hsuccess
  | ok model =>
    obtain ⟨other, hother⟩ := hboth.1 ⟨model, hmodel⟩
    exact ⟨by decide, hperm, model, other, rfl, hother, (hviews model other hmodel hother).1⟩

end Metamodel
