import Metamodel.Proofs.Blueprint.Checks

/-!
# Whom the checks of a declaration blame

Header and blueprint of a declaration are built by checks, and each check that fails blames the
type of that declaration or one of its own members, also where it compares them with what is
inherited. None of them reports a cycle of ancestors: that is for registration to find.
`Header.about_of_error` and `Blueprint.about_of_error` say so for all checks together.
-/

namespace Metamodel

/-- The cycle of ancestors that a fault reports. -/
def Fault.cycle? : Fault → Option (List String)
  | .cyclicAncestry cycle => some cycle
  | _ => none

/-- The violation blames a declaration or one of its members, for something other than a cycle of
its ancestors. -/
structure Violation.About (violation : Violation) (declaration : Declaration) : Prop where
  typeName_eq : violation.subject.typeName = declaration.qualifiedName
  member_mem : ∀ name ∈ violation.subject.member, name ∈ declaration.members.map (·.name)
  cycle?_eq : violation.fault.cycle? = none

namespace Violation.About

variable {declaration : Declaration} {typeName : String} {fault : Fault}

/-- A declaration is to blame as a whole. -/
theorem ofType (hname : typeName = declaration.qualifiedName) (hfault : fault.cycle? = none) :
    (Violation.ofType typeName fault).About declaration :=
  ⟨hname, by simp [Violation.ofType], hfault⟩

/-- A member of a declaration is to blame. -/
theorem ofMember (hname : typeName = declaration.qualifiedName) {member : String}
    (hmember : member ∈ declaration.members.map (·.name)) (hfault : fault.cycle? = none) :
    (Violation.ofMember typeName member fault).About declaration :=
  ⟨hname, by simpa [Violation.ofMember] using hmember, hfault⟩

end Violation.About

/-! ### Failing checks -/

section Checks

variable {ε : Type}

/-- A check fails with what there is to report. -/
theorem succeedUnless_eq_error_iff {report : Option ε} {violation : ε} :
    succeedUnless report = .error violation ↔ report = some violation := by
  cases report <;> simp [succeedUnless]

/-- A failure is reported as the function says. -/
theorem Except.mapError_eq_error_iff {ε' α : Type} {f : ε → ε'} {outcome : Except ε α}
    {report : ε'} :
    outcome.mapError f = .error report ↔ ∃ fault, outcome = .error fault ∧ f fault = report := by
  cases outcome <;> simp [Except.mapError]

/-- A list is processed up to the first item that fails. -/
theorem Except.exists_of_mapM_eq_error {α β : Type} {f : α → Except ε β} {items : List α}
    {report : ε} (h : items.mapM f = .error report) : ∃ item ∈ items, f item = .error report := by
  induction items with
  | nil => cases h
  | cons item items ih =>
    rw [List.mapM_cons, Except.bind_eq_error_iff] at h
    rcases h with hfirst | ⟨result, -, hrest⟩
    · exact ⟨item, List.mem_cons_self, hfirst⟩
    · rcases Except.bind_eq_error_iff.1 hrest with hitems | ⟨results, -, hdone⟩
      · obtain ⟨other, hother, hfails⟩ := ih hitems
        exact ⟨other, List.mem_cons_of_mem _ hother, hfails⟩
      · cases hdone

end Checks

/-! ### Headers -/

/-- No custom message is blamed for a cycle. -/
theorem cycle?_of_messageFault? {seen : List String} {messages : List ValidationMessage}
    {fault : Fault} (h : messageFault? seen messages = some fault) : fault.cycle? = none := by
  induction messages generalizing seen with
  | nil => cases h
  | cons entry rest ih =>
    rw [messageFault?, Option.or_eq_some_iff, Option.or_eq_some_iff, Option.or_eq_some_iff] at h
    rcases h with ((hillegal | ⟨-, hblank⟩) | ⟨-, hrepeated⟩) | ⟨-, hrest⟩
    · obtain ⟨_, -, rfl⟩ := Option.map_eq_some_iff.1 hillegal
      rfl
    · split at hblank <;> cases hblank
      rfl
    · split at hrepeated <;> cases hrepeated
      rfl
    · exact ih hrest

theorem Declaration.cycle?_of_classify {declaration : Declaration} {fault : Fault}
    (h : declaration.classify = .error fault) : fault.cycle? = none := by
  rw [classify] at h
  split at h
  · cases h; rfl
  · cases h
  · dsimp only at h
    split at h <;> cases h
    rfl
  · cases h
  · cases h; rfl

theorem Declaration.cycle?_of_ancestor? {source : Source} {declaration : Declaration}
    {fault : Fault} (h : declaration.ancestor? source = .error fault) : fault.cycle? = none := by
  rw [ancestor?] at h
  split at h <;> cases h
  rfl

/-- A header that cannot be built is the fault of its declaration. -/
theorem Header.about_of_error {source : Source} {declaration : Declaration}
    {violation : Violation} (h : Header.ofDeclaration source declaration = .error violation) :
    violation.About declaration := by
  rw [ofDeclaration, Except.mapError_eq_error_iff] at h
  obtain ⟨fault, hfault, rfl⟩ := h
  refine .ofType rfl ?_
  rcases Except.bind_eq_error_iff.1 hfault with hname | ⟨_, -, hrest⟩
  · obtain ⟨_, -, rfl⟩ := Option.map_eq_some_iff.1 (succeedUnless_eq_error_iff.1 hname)
    rfl
  rcases Except.bind_eq_error_iff.1 hrest with hclassify | ⟨⟨category, scope⟩, -, hrest⟩
  · exact Declaration.cycle?_of_classify hclassify
  rcases Except.bind_eq_error_iff.1 hrest with hmessages | ⟨_, -, hrest⟩
  · exact cycle?_of_messageFault? (succeedUnless_eq_error_iff.1 hmessages)
  rcases Except.bind_eq_error_iff.1 hrest with hancestor | ⟨_, -, hdone⟩
  · exact Declaration.cycle?_of_ancestor? hancestor
  · cases hdone

/-! ### Blueprints -/

section Blueprints

variable {source : Source} {config : Config} {declaration : Declaration} {header : Header}
  {inherited : Option Inherited} {violation : Violation}

theorem about_of_memberViolation? {seen : List String} {members : List Member}
    (hmembers : members ⊆ declaration.members)
    (h : memberViolation? declaration.qualifiedName seen members = some violation) :
    violation.About declaration := by
  induction members generalizing seen with
  | nil => cases h
  | cons member rest ih =>
    have hmember : member.name ∈ declaration.members.map (·.name) :=
      List.mem_map_of_mem (hmembers List.mem_cons_self)
    rw [memberViolation?] at h
    split at h
    · cases h
      exact .ofMember rfl hmember rfl
    · rcases Option.or_eq_some_iff.1 h with hbody | ⟨-, hrest⟩
      · obtain ⟨_, -, rfl⟩ := Option.map_eq_some_iff.1 hbody
        exact .ofMember rfl hmember rfl
      · exact ih (List.subset_of_cons_subset hmembers) hrest

theorem Member.cycle?_of_formulaFault? {member : Member} {fault : Fault}
    (h : member.formulaFault? = some fault) : fault.cycle? = none := by
  rw [formulaFault?] at h
  split at h
  · cases h
  · split at h
    · obtain ⟨_, -, rfl⟩ := Option.map_eq_some_iff.1 h
      rfl
    · split at h
      · cases h
        rfl
      · obtain ⟨_, -, rfl⟩ := Option.map_eq_some_iff.1 h
        rfl

theorem Member.about_of_spec {member : Member} (hmember : member ∈ declaration.members) {id : Nat}
    (h : member.spec source declaration.qualifiedName id = .error violation) :
    violation.About declaration := by
  rw [spec, Except.mapError_eq_error_iff] at h
  obtain ⟨fault, hfault, rfl⟩ := h
  refine .ofMember rfl (List.mem_map_of_mem hmember) ?_
  rcases Except.bind_eq_error_iff.1 hfault with hformula | ⟨_, -, hcomputed⟩
  · exact cycle?_of_formulaFault? (succeedUnless_eq_error_iff.1 hformula)
  · split at hcomputed <;> cases hcomputed
    rfl

theorem Header.cycle?_of_ancestorFault? {ancestor : Inherited} {fault : Fault}
    (h : header.ancestorFault? ancestor = some fault) : fault.cycle? = none := by
  rw [ancestorFault?] at h
  split at h
  · cases h
    rfl
  · split at h <;> cases h
    rfl

namespace SpecialContext

variable {context : SpecialContext} {special : Special}

/-- The first property tagged for a role is one of the type. -/
theorem mem_props_of_first? {prop : PropSpec} (h : context.first? special = some prop) :
    prop ∈ context.props := by
  rw [first?_eq_head?] at h
  exact List.mem_of_mem_filter (List.mem_of_mem_head? h)

variable (hcontext : context.typeName = declaration.qualifiedName)
  (hprops : ∀ prop ∈ context.props, prop.name ∈ declaration.members.map (·.name))

include hcontext hprops

theorem about_of_blame {fault : Fault} (hfault : fault.cycle? = none)
    (h : context.blame special fault = some violation) : violation.About declaration := by
  obtain ⟨prop, hprop, rfl⟩ := Option.map_eq_some_iff.1 h
  exact .ofMember hcontext (hprops prop (mem_props_of_first? hprop)) hfault

/-- Whichever rule about special roles is broken, the type or one of its members is blamed, and
never the one that fills the role above. -/
theorem about_of_violation? (h : context.violation? config = some violation) :
    violation.About declaration := by
  simp only [violation?, Option.or_eq_some_iff] at h
  rcases h with (((htaken | ⟨-, hdisallowed⟩) | ⟨-, hrepeated⟩) | ⟨-, hassociation⟩) |
    ⟨-, hmissing⟩
  · obtain ⟨special, -, htaken⟩ := List.exists_of_findSome?_eq_some htaken
    obtain ⟨holder, -, hblame⟩ := Option.bind_eq_some_iff.1 htaken
    exact about_of_blame hcontext hprops rfl hblame
  · obtain ⟨special, -, hdisallowed⟩ := List.exists_of_findSome?_eq_some hdisallowed
    rw [disallowed?] at hdisallowed
    split at hdisallowed
    · cases hdisallowed
    · exact about_of_blame hcontext hprops rfl hdisallowed
  · obtain ⟨special, -, hrepeated⟩ := List.exists_of_findSome?_eq_some hrepeated
    rw [repeated?] at hrepeated
    split at hrepeated <;> cases hrepeated
    exact .ofType hcontext rfl
  · obtain ⟨special, -, hassociation⟩ := List.exists_of_findSome?_eq_some hassociation
    rw [association?] at hassociation
    split at hassociation
    · cases hassociation
    · obtain ⟨prop, hfirst, hprop⟩ := Option.bind_eq_some_iff.1 hassociation
      split at hprop <;> cases hprop
      exact .ofMember hcontext (hprops prop (mem_props_of_first? hfirst)) rfl
  · rw [missingIdentity?] at hmissing
    split at hmissing <;> cases hmissing
    exact .ofType hcontext rfl

end SpecialContext

/-- The properties of a declaration have the names of its members. -/
theorem Declaration.name_mem_of_propSpecs {last : Nat} {props : List PropSpec}
    (h : declaration.propSpecs source last = .ok props) {prop : PropSpec} (hprop : prop ∈ props) :
    prop.name ∈ declaration.members.map (·.name) := by
  obtain ⟨member, hmember, id, rfl⟩ := exists_member_of_propSpecs h hprop
  rw [declaration.propertyMembers_perm.mem_iff] at hmember
  exact List.mem_map_of_mem (List.mem_of_mem_filter hmember)

/-- A blueprint that cannot be built is the fault of its declaration. -/
theorem Blueprint.about_of_error
    (h : Blueprint.ofDeclaration source config declaration header inherited = .error violation) :
    violation.About declaration := by
  rw [ofDeclaration] at h
  rcases Except.bind_eq_error_iff.1 h with hancestor | ⟨_, -, h⟩
  · obtain ⟨fault, hfault, rfl⟩ := Option.map_eq_some_iff.1 (succeedUnless_eq_error_iff.1 hancestor)
    obtain ⟨ancestor, -, hfault⟩ := Option.bind_eq_some_iff.1 hfault
    exact .ofType rfl (Header.cycle?_of_ancestorFault? hfault)
  rcases Except.bind_eq_error_iff.1 h with hmembers | ⟨_, -, h⟩
  · exact about_of_memberViolation? (List.Subset.refl _) (succeedUnless_eq_error_iff.1 hmembers)
  rcases Except.bind_eq_error_iff.1 h with hfails | ⟨props, hprops, h⟩
  · obtain ⟨⟨member, id⟩, hentry, hspec⟩ := Except.exists_of_mapM_eq_error hfails
    have hmember := List.fst_mem_of_mem_zipIdx hentry
    rw [declaration.propertyMembers_perm.mem_iff] at hmember
    exact Member.about_of_spec (List.mem_of_mem_filter hmember) hspec
  rcases Except.bind_eq_error_iff.1 h with hoverride | ⟨_, -, h⟩
  · obtain ⟨prop, hprop, rfl⟩ := Option.map_eq_some_iff.1 (succeedUnless_eq_error_iff.1 hoverride)
    exact .ofMember rfl
      (Declaration.name_mem_of_propSpecs hprops (List.mem_of_find?_eq_some hprop)) rfl
  rcases Except.bind_eq_error_iff.1 h with hspecials | ⟨_, -, hdone⟩
  · exact SpecialContext.about_of_violation? rfl
      (fun prop hprop => Declaration.name_mem_of_propSpecs hprops hprop)
      (succeedUnless_eq_error_iff.1 hspecials)
  · cases hdone

end Blueprints

end Metamodel
