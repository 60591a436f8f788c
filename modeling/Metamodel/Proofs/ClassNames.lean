import Metamodel.Proofs.Paths
import Metamodel.Proofs.Suffixes

/-!
# Names of generated classes

The canonical name of a generated class is that of its type with an ending, and the ending depends
on the naming and the role alone (`DerivedNames.canonicalName_nameFor`). So whether two classes of
one type have the same name does not depend on the type, and classes of two types in one role never
do. An ending is a suffix and the classes inside, all without dots, so that endings are compared
part by part: what remains is to compare the suffixes (`DerivedNames.apart_iff`).
-/

namespace Metamodel

open Text

/-- Qualified names are extended at their end. -/
theorem Declaration.qualify_append (package simpleName suffix : String) :
    qualify package (simpleName ++ suffix) = qualify package simpleName ++ suffix := by
  rw [qualify, qualify]
  split
  · rfl
  · simp only [String.append_assoc]

namespace ClassRole

/-- The suffix of the outermost class of a role, which the class of the type itself does without. -/
def suffix (naming : Naming) : ClassRole → String
  | .value => ""
  | .draft | .producer | .implementor | .implementation | .draftImplementation | .mapStruct =>
    naming.draft
  | .props => naming.props
  | .table | .remoteTable => naming.table
  | .tableEx => naming.table ++ "Ex"
  | .fetcher => naming.fetcher
  | .propExpression => naming.propExpression

/-- The simple names from the class inside the outermost one inward. -/
def inner : ClassRole → List String
  | .value | .draft | .props | .table | .tableEx | .fetcher | .propExpression => []
  | .producer => ["Producer"]
  | .implementor => ["Producer", "Implementor"]
  | .implementation => ["Producer", "Impl"]
  | .draftImplementation => ["Producer", "DraftImpl"]
  | .mapStruct => ["MapStruct"]
  | .remoteTable => ["Remote"]

/-- What a role adds to the name of a type. -/
def ending (naming : Naming) (role : ClassRole) : String :=
  joinDots (role.suffix naming :: role.inner)

variable {naming : Naming} {role other : ClassRole}

/-- A class inside another is that of one role only. -/
theorem eq_of_inner_eq (h : role.inner = other.inner) (hinner : role.inner ≠ []) :
    role = other := by
  cases role <;> cases other <;> first | rfl | simp [inner] at h hinner

theorem dot_not_mem_inner : ∀ name ∈ role.inner, '.' ∉ name.toList := by
  cases role <;> decide

/-- All suffixes but that of the class of the type itself are fragments. -/
theorem isFragment_suffix (hnaming : ∀ role, IsFragment (naming.suffix role))
    (hvalue : role ≠ .value) : IsFragment (role.suffix naming) := by
  cases role with
  | value => exact absurd rfl hvalue
  | draft | producer | implementor | implementation | draftImplementation | mapStruct =>
    exact hnaming .draft
  | props => exact hnaming .props
  | table | remoteTable => exact hnaming .table
  | tableEx => exact (hnaming .table).append (by decide)
  | fetcher => exact hnaming .fetcher
  | propExpression => exact hnaming .propExpression

theorem dot_not_mem_suffix (hnaming : ∀ role, IsFragment (naming.suffix role)) :
    '.' ∉ (role.suffix naming).toList := by
  by_cases hvalue : role = .value
  · simp [hvalue, suffix]
  · exact (isFragment_suffix hnaming hvalue).dot_not_mem

theorem suffix_eq_empty_iff (hnaming : ∀ role, IsFragment (naming.suffix role)) :
    role.suffix naming = "" ↔ role = .value := by
  constructor
  · intro hempty
    by_contra hvalue
    exact (isFragment_suffix hnaming hvalue).ne_empty hempty
  · rintro rfl
    rfl

/-- Two endings are the same exactly when they are so part by part. -/
theorem ending_eq_iff (hnaming : ∀ role, IsFragment (naming.suffix role)) :
    role.ending naming = other.ending naming ↔
      role.suffix naming = other.suffix naming ∧ role.inner = other.inner := by
  have hcut (role : ClassRole) :
      splitDots (role.ending naming) = role.suffix naming :: role.inner :=
    splitDots_joinDots (List.cons_ne_nil _ _)
      (List.forall_mem_cons.2 ⟨dot_not_mem_suffix hnaming, dot_not_mem_inner⟩)
  rw [← List.cons_eq_cons, ← hcut, ← hcut]
  refine ⟨congrArg splitDots, fun h => ?_⟩
  rw [← joinDots_splitDots (role.ending naming), h, joinDots_splitDots]

end ClassRole

namespace Category

/-- The roles of a category whose classes are named by a suffix of their own. -/
def suffixRoles : Category → List ClassRole
  | .mappedSuperclass => [.draft, .props]
  | .embeddable => [.draft, .props, .fetcher, .propExpression]
  | .entity => [.draft, .props, .fetcher, .table, .tableEx]

/-- The suffixes that a category uses. -/
def suffixes (naming : Naming) : Category → List String
  | .mappedSuperclass => [naming.draft, naming.props]
  | .embeddable => [naming.draft, naming.props, naming.fetcher, naming.propExpression]
  | .entity => [naming.draft, naming.props, naming.fetcher, naming.table, naming.table ++ "Ex"]

variable {category : Category}

theorem map_suffixRoles (naming : Naming) (category : Category) :
    category.suffixRoles.map (·.suffix naming) = category.suffixes naming := by
  cases category <;> rfl

theorem nodup_suffixRoles (category : Category) : category.suffixRoles.Nodup := by
  cases category <;> decide

/-- These are the outermost classes of the category but for that of the type itself. -/
theorem mem_suffixRoles {role : ClassRole} :
    role ∈ category.suffixRoles ↔
      role.appliesTo category = true ∧ role.inner = [] ∧ role ≠ .value := by
  cases category <;> cases role <;> decide

/-- Suffixes are distinct exactly when no two roles share one. -/
theorem nodup_suffixes_iff {naming : Naming} :
    (category.suffixes naming).Nodup ↔
      ∀ role ∈ category.suffixRoles, ∀ other ∈ category.suffixRoles,
        role.suffix naming = other.suffix naming → role = other := by
  rw [← map_suffixRoles, List.nodup_map_iff_inj_on category.nodup_suffixRoles]

end Category

namespace DerivedNames

/-- No two classes have one canonical name. -/
def Apart (names : DerivedNames) : Prop :=
  ∀ role other name name', names.get? role = some name → names.get? other = some name' →
    name.canonicalName = name'.canonicalName → role = other

variable {package simpleName : String} {category : Category} {naming : Naming}
  {role other : ClassRole}

/-- The simple names of a class are that of the type with a suffix and those inside it. -/
theorem nameFor_eq :
    nameFor package simpleName naming role =
      ⟨package, (simpleName ++ role.suffix naming) :: role.inner⟩ := by
  cases role <;> simp [nameFor, nameFor.draftName, nameFor.producerName, nameFor.suffixed,
    ClassName.topLevel, ClassName.nested, ClassRole.suffix, ClassRole.inner]

/-- The canonical name of a class is that of the type with the ending of the role. -/
theorem canonicalName_nameFor :
    (nameFor package simpleName naming role).canonicalName =
      Declaration.qualify package simpleName ++ role.ending naming := by
  rw [nameFor_eq, ClassName.canonicalName, joinDots, String.intercalate_cons_append,
    Declaration.qualify_append]
  rfl

/-- A class is there for a role of the category, with the name for that role. -/
theorem get?_derive_eq_some_iff {name : ClassName} :
    (derive package simpleName category naming).get? role = some name ↔
      role.appliesTo category = true ∧ name = nameFor package simpleName naming role := by
  rw [get?_derive]
  split
  · next happlies => simp [happlies, eq_comm]
  · next happlies => simp [happlies]

/-- Classes of one type are apart exactly when their endings are. -/
theorem apart_iff_ending :
    (derive package simpleName category naming).Apart ↔
      ∀ role other : ClassRole, role.appliesTo category = true →
        other.appliesTo category = true → role.ending naming = other.ending naming →
          role = other := by
  simp only [Apart, get?_derive_eq_some_iff]
  constructor
  · intro h role other hrole hother hending
    refine h role other _ _ ⟨hrole, rfl⟩ ⟨hother, rfl⟩ ?_
    rw [canonicalName_nameFor, canonicalName_nameFor, hending]
  · rintro h role other _ _ ⟨hrole, rfl⟩ ⟨hother, rfl⟩ hname
    rw [canonicalName_nameFor, canonicalName_nameFor, String.append_right_inj] at hname
    exact h role other hrole hother hname

/-- Classes of one type are apart exactly when the suffixes of its category are. -/
theorem apart_iff (hnaming : ∀ role, IsFragment (naming.suffix role)) :
    (derive package simpleName category naming).Apart ↔ (category.suffixes naming).Nodup := by
  rw [apart_iff_ending, Category.nodup_suffixes_iff]
  simp only [ClassRole.ending_eq_iff hnaming, Category.mem_suffixRoles]
  constructor
  · rintro h role ⟨hrole, hinner, -⟩ other ⟨hother, hinner', -⟩ hsuffix
    exact h role other hrole hother ⟨hsuffix, hinner.trans hinner'.symm⟩
  · rintro h role other hrole hother ⟨hsuffix, hinner⟩
    -- inner classes are told apart by the names inside, outermost ones by their suffixes
    by_cases hinside : role.inner = []
    · by_cases hvalue : role.suffix naming = ""
      · rw [(ClassRole.suffix_eq_empty_iff hnaming).1 hvalue,
          (ClassRole.suffix_eq_empty_iff hnaming).1 (hsuffix.symm.trans hvalue)]
      · rw [ClassRole.suffix_eq_empty_iff hnaming] at hvalue
        have hvalue' : other ≠ .value := by
          rw [ne_eq, ← ClassRole.suffix_eq_empty_iff hnaming, ← hsuffix,
            ClassRole.suffix_eq_empty_iff hnaming]
          exact hvalue
        exact h role ⟨hrole, hinside, hvalue⟩ other
          ⟨hother, hinner.symm.trans hinside, hvalue'⟩ hsuffix
    · exact ClassRole.eq_of_inner_eq hinner hinside

end DerivedNames

/-- A registered type has the names that are derived for its declaration, whose own names are
identifiers. -/
theorem Graph.Realizes.exists_names {source : Source} {config : Config} {graph : Graph}
    (h : graph.Realizes source config) {type : TypeNode} (htype : type ∈ graph.types) :
    ∃ declaration, source.declaration? type.qualifiedName = some declaration ∧
      declaration.LegalAlone source ∧ type.names =
        .derive declaration.package declaration.simpleName type.category config.naming := by
  obtain ⟨lineage, hlineage, hplaces⟩ := h.placed type htype
  obtain ⟨blueprint, above, inherited, rfl, hbuilds⟩ := hplaces.head
  obtain ⟨declaration, header, hdeclared, hheader, hblueprint⟩ := hlineage.exists_declaration
  obtain ⟨-, -, props, -, -, -, rfl⟩ := Blueprint.ofDeclaration_eq_ok_iff.1 hblueprint
  refine ⟨declaration, hdeclared, Header.exists_ok_iff.1 ⟨header, hheader⟩, ?_⟩
  rw [hbuilds.names, hbuilds.category]
  rfl

/-- In one role the canonical name of a class leads back to the name of its type. -/
theorem Graph.Realizes.canonicalName_eq {source : Source} {config : Config} {graph : Graph}
    (h : graph.Realizes source config) {type : TypeNode} (htype : type ∈ graph.types)
    {role : ClassRole} {name : ClassName} (hname : type.names.get? role = some name) :
    name.canonicalName = type.qualifiedName ++ role.ending config.naming := by
  obtain ⟨declaration, hdeclared, -, hnames⟩ := h.exists_names htype
  rw [hnames, DerivedNames.get?_derive_eq_some_iff] at hname
  rw [hname.2, DerivedNames.canonicalName_nameFor,
    ← Source.qualifiedName_of_declaration? hdeclared, Declaration.qualifiedName]

/-- Under a naming that is fit, the classes of a type have distinct canonical names exactly when
the suffixes that its category uses are distinct, whatever its package and name. Under any
configuration, the classes of two registered types in one role have distinct canonical names. -/
theorem canonicalNames_collide :
    (∀ naming : Naming, naming.fault? = none → ∀ package simpleName category,
      (DerivedNames.derive package simpleName category naming).Apart ↔
        (category.suffixes naming).Nodup) ∧
    ∀ source config registry, Reachable source config registry →
      ∀ type ∈ registry.graph.types, ∀ other ∈ registry.graph.types, type ≠ other →
        ∀ role name name', type.names.get? role = some name →
          other.names.get? role = some name' → name.canonicalName ≠ name'.canonicalName := by
  refine ⟨fun naming hnaming package simpleName category =>
    DerivedNames.apart_iff (Naming.fault?_eq_none_iff.1 hnaming), ?_⟩
  intro source config registry h type htype other hother hne role name name' hname hname' heq
  have hrealizes := h.sound.realizes
  rw [hrealizes.canonicalName_eq htype hname, hrealizes.canonicalName_eq hother hname',
    String.append_left_inj] at heq
  have hfound := hrealizes.find?_qualifiedName htype
  rw [heq, hrealizes.find?_qualifiedName hother] at hfound
  exact hne (Option.some.inj hfound).symm

/-- An order and another one in a package. -/
def twoOrders : Source where
  declarations := {
    toList := [
      { simpleName := "Order", tags := [.embeddable] },
      { package := "archive", simpleName := "Order", tags := [.embeddable] }]
    names_nodup := by decide }

theorem canonicalNames_collide_orders :
    ¬ (DerivedNames.derive "archive" "Order" .entity { fetcher := "TableEx" }).Apart ∧
      (DerivedNames.derive "archive" "Order" .embeddable { fetcher := "TableEx" }).Apart ∧
      ∃ registry, Reachable twoOrders {} registry ∧
        ∃ type ∈ registry.graph.types, ∃ other ∈ registry.graph.types, ∃ name name',
          type.names.get? .producer = some name ∧ other.names.get? .producer = some name' ∧
            name.simpleNames = name'.simpleNames ∧
            name.canonicalName ≠ name'.canonicalName := by
  have hcollide := canonicalNames_collide.1 { fetcher := "TableEx" } (by decide) "archive" "Order"
  refine ⟨fun h => absurd ((hcollide .entity).1 h) (by decide),
    (hcollide .embeddable).2 (by decide), ?_⟩
  have hreachable : LeadsTo twoOrders {} {} _ := .step .resolveAll .refl
  have hproducers : (Command.run twoOrders {} {} .resolveAll).registry.graph.types.map
      (·.names.get? .producer) =
        [some ⟨"", ["OrderDraft", "Producer"]⟩, some ⟨"archive", ["OrderDraft", "Producer"]⟩] := by
    decide +kernel
  obtain ⟨type, htype, hname⟩ := List.mem_map.1 (hproducers ▸ List.mem_cons_self)
  obtain ⟨other, hother, hname'⟩ := List.mem_map.1
    (hproducers ▸ List.mem_cons_of_mem _ List.mem_cons_self)
  have hne : type ≠ other := by
    rintro rfl
    simp [hname] at hname'
  exact ⟨_, hreachable, type, htype, other, hother, _, _, hname, hname', rfl,
    canonicalNames_collide.2 _ _ _ hreachable type htype other hother hne _ _ _ hname hname'⟩

end Metamodel
