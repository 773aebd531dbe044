import Mathlib.Data.List.Nodup
import PolicyForge.Proofs.Lists
import PolicyForge.Proofs.Service.Naming

namespace PolicyForge.Naming

open Condition (GlobalKey)
open Identifier (IsSnake Role Scope isKeyword keywords methodBase)

/-- A request is shared when it asks for the published method of a published key. -/
theorem isShared_iff {request : Request} :
    request.isShared = true ↔ request.role = .condition ∧
      ∃ key ∈ GlobalKey.all, key.published = request.source ∧ key.method = request.base := by
  simp [Request.isShared]

theorem base_mem_of_isShared {request : Request} (hshared : request.isShared = true) :
    request.base ∈ GlobalKey.all.map (·.method) := by
  obtain ⟨_, key, hkey, _, hmethod⟩ := isShared_iff.mp hshared
  exact hmethod ▸ List.mem_map_of_mem hkey

namespace Allocator

variable {free : Allocator}

/-- A method that can still be given out: one that is not taken, or that of a shared key which no
key has taken over. -/
def Offers (free : Allocator) (method : String) : Prop :=
  method ∉ free.scope.taken ∨ method ∈ free.shared

/-- The methods of shared keys that are left are reserved, and each is left once. -/
structure Sound (free : Allocator) : Prop where
  shared_taken : free.shared ⊆ free.scope.taken
  nodup_shared : free.shared.Nodup

/-- From the start, the reserved methods and those of all shared keys are taken. -/
theorem mem_taken_start {method : String} :
    method ∈ start.scope.taken ↔ method ∈ reservedMethods ∨ method ∈ start.shared :=
  Scope.mem_taken_foldl_reserve

/-- The published methods are named apart. -/
theorem nodup_shared_start : start.shared.Nodup := by
  decide +kernel

/-- At the start the methods of shared keys are taken, and named apart. -/
theorem sound_start : start.Sound :=
  ⟨fun _ hmem => mem_taken_start.mpr (.inr hmem), nodup_shared_start⟩

/-- What the start can offer is none of the reserved methods. -/
theorem not_mem_reservedMethods_of_offers {method : String} (hoffers : start.Offers method) :
    method ∉ reservedMethods := by
  intro hreserved
  obtain hfree | hshared := hoffers
  · exact hfree (mem_taken_start.mpr (.inl hreserved))
  · have hapart : ∀ shared ∈ start.shared, shared ∉ reservedMethods := by decide +kernel
    exact hapart method hshared hreserved

/-- A shared key whose method is left takes it over. -/
theorem take_of_shared {request : Request} (hshared : request.isShared = true)
    (hleft : request.base ∈ free.shared) :
    free.take request =
      (⟨request.base, false⟩, { free with shared := free.shared.erase request.base }) := by
  have htakes : (request.isShared && free.shared.contains request.base) = true := by
    rw [hshared, Bool.true_and, List.contains_iff_mem]
    exact hleft
  exact if_pos htakes

/-- Every other request is answered by the scope. -/
theorem take_of_not_shared {request : Request}
    (hspent : request.isShared = true → request.base ∉ free.shared) :
    free.take request = ((free.scope.allocate request.base).1,
      { free with scope := (free.scope.allocate request.base).2 }) := by
  apply if_neg
  rw [Bool.and_eq_true, List.contains_iff_mem]
  exact fun htakes => hspent htakes.1 htakes.2

/-- Either a shared key takes over its own method, which is left no more, or the scope answers. -/
theorem take_cases (free : Allocator) (request : Request) :
    (request.isShared = true ∧ request.base ∈ free.shared ∧
      free.take request =
        (⟨request.base, false⟩, { free with shared := free.shared.erase request.base })) ∨
    free.take request = ((free.scope.allocate request.base).1,
      { free with scope := (free.scope.allocate request.base).2 }) := by
  by_cases htakes : request.isShared = true ∧ request.base ∈ free.shared
  · exact .inl ⟨htakes.1, htakes.2, take_of_shared htakes.1 htakes.2⟩
  · exact .inr (take_of_not_shared fun hshared hleft => htakes ⟨hshared, hleft⟩)

/-- An answer was on offer and is so no more, and nothing new comes on offer. -/
theorem Sound.take (hsound : free.Sound) (request : Request) :
    free.Offers (free.take request).1.ident ∧ (free.take request).2.Sound ∧
      ¬ (free.take request).2.Offers (free.take request).1.ident ∧
      ∀ method, (free.take request).2.Offers method → free.Offers method := by
  obtain ⟨_, hmem, heq⟩ | heq := free.take_cases request
  · have herase : ∀ method, method ∈ free.shared.erase request.base → method ∈ free.shared :=
      fun _ => List.mem_of_mem_erase
    rw [heq]
    refine ⟨.inr hmem, ⟨fun _ h => hsound.shared_taken (herase _ h), hsound.nodup_shared.erase _⟩,
      ?_, ?_⟩
    · rintro (hfree | hshared)
      · exact hfree (hsound.shared_taken hmem)
      · exact hsound.nodup_shared.not_mem_erase hshared
    · rintro method (hfree | hshared)
      · exact .inl hfree
      · exact .inr (herase _ hshared)
  · obtain ⟨hfresh, htaken⟩ := free.scope.allocate_fresh request.base
    rw [heq]
    refine ⟨.inl hfresh, ⟨?_, hsound.nodup_shared⟩, ?_, ?_⟩
    · intro method hmethod
      rw [htaken]
      exact List.mem_cons_of_mem _ (hsound.shared_taken hmethod)
    · rintro (hfree | hshared)
      · rw [htaken] at hfree
        exact hfree List.mem_cons_self
      · exact hfresh (hsound.shared_taken hshared)
    · rintro method (hfree | hshared)
      · rw [htaken] at hfree
        exact .inl fun hmem => hfree (List.mem_cons_of_mem _ hmem)
      · exact .inr hshared

/-- No answer is given twice, and all were on offer at the start. -/
theorem Sound.takeAll (hsound : free.Sound) (requests : List Request) :
    ((free.takeAll requests).map (·.ident)).Nodup ∧
      ∀ method ∈ (free.takeAll requests).map (·.ident), free.Offers method := by
  induction requests generalizing free with
  | nil => simp [Allocator.takeAll]
  | cons request requests ih =>
    obtain ⟨hoffers, hnext, hspent, hback⟩ := hsound.take request
    obtain ⟨hnodup, hrest⟩ := ih hnext
    rw [Allocator.takeAll, List.map_cons]
    refine ⟨List.nodup_cons.mpr ⟨fun hmem => hspent (hrest _ hmem), hnodup⟩, ?_⟩
    intro method hmethod
    obtain rfl | hmem := List.mem_cons.mp hmethod
    · exact hoffers
    · exact hback method (hrest method hmem)

/-- How a method answers a request: it is the one asked for, possibly with a number behind. A method
that is taken from the start goes to none but the shared key it belongs to. -/
structure Answers (free : Allocator) (request : Request) (method : String) : Prop where
  derived : method = request.base ∨ ∃ n : Nat, method = request.base ++ toString n
  shared : method ∈ free.scope.taken → request.isShared = true ∧ method = request.base

/-- One request is answered by a method on offer, and nothing that was taken is given back. -/
theorem answers_take (free : Allocator) (request : Request) :
    free.Answers request (free.take request).1.ident ∧
      free.scope.taken ⊆ (free.take request).2.scope.taken := by
  obtain ⟨hshared, _, heq⟩ | heq := free.take_cases request
  · rw [heq]
    exact ⟨⟨.inl rfl, fun _ => ⟨hshared, rfl⟩⟩, fun _ h => h⟩
  · obtain ⟨hfresh, htaken⟩ := free.scope.allocate_fresh request.base
    rw [heq]
    refine ⟨⟨?_, fun hmem => absurd hmem hfresh⟩, ?_⟩
    · obtain ⟨_, hclaim⟩ | ⟨_, n, _, _, _, hclaim⟩ := free.scope.allocate_cases request.base
      · rw [hclaim]
        exact .inl rfl
      · rw [hclaim]
        exact .inr ⟨n, rfl⟩
    · rw [htaken]
      exact fun _ hmem => List.mem_cons_of_mem _ hmem

/-- All requests are answered by methods that were on offer at the start. -/
theorem answers_takeAll (free : Allocator) (requests : List Request) :
    List.Forall₂ free.Answers requests ((free.takeAll requests).map (·.ident)) := by
  induction requests generalizing free with
  | nil => exact .nil
  | cons request requests ih =>
    obtain ⟨hanswers, hgrows⟩ := free.answers_take request
    refine .cons hanswers ((ih _).imp ?_)
    rintro other method ⟨hderived, hshared⟩
    exact ⟨hderived, fun hmem => hshared (hgrows hmem)⟩

end Allocator

/-- A method name with the given start: small letters, digits and underscores behind the start, of
which the first is a letter, and no word that the generated language keeps for itself. -/
structure IsMethodName (start ident : String) : Prop where
  starts : start.toList <+: ident.toList
  letter : ident.toList.head?.any Char.isLower = true
  snake : IsSnake ident
  not_keyword : isKeyword ident = false

/-- The start of a role makes the rest of the name usable: it begins with a letter, and no keyword
begins with it. -/
theorem isMethodName_of_starts {role : Role} {ident : String}
    (hstarts : role.methodStart.toList <+: ident.toList) (hsnake : IsSnake ident) :
    IsMethodName role.methodStart ident := by
  refine ⟨hstarts, ?_, hsnake, ?_⟩
  · obtain ⟨rest, hrest⟩ := hstarts
    rw [← hrest]
    cases role <;> rfl
  · have hapart : ∀ word ∈ keywords, ¬ role.methodStart.toList <+: word.toList := by
      cases role <;> decide
    simp only [isKeyword, List.contains_eq_mem, decide_eq_false_iff_not]
    exact fun hmem => hapart ident hmem hstarts

theorem IsMethodName.append {role : Role} {ident : String}
    (hident : IsMethodName role.methodStart ident) {ending : String} (hending : IsSnake ending) :
    IsMethodName role.methodStart (ident ++ ending) := by
  apply isMethodName_of_starts
  · rw [String.toList_append]
    exact hident.starts.trans (List.prefix_append _ _)
  · exact hident.snake.append hending

/-- A member asks for a method name of its role, whatever it is called itself. -/
theorem isMethodName_methodBase (role : Role) (name : String) :
    IsMethodName role.methodStart (methodBase role name) := by
  apply isMethodName_of_starts
  · rw [methodBase, String.toList_append]
    exact List.prefix_append _ _
  · refine IsSnake.append (by cases role <;> decide) ?_
    split
    · decide
    · exact Identifier.isSnake_snake name

/-- The base of a condition method has the form of one, with or without its prefix and whatever its
ending. -/
theorem isMethodName_conditionBase (servicePrefix keyPrefix keyName : String) (openSuffix : Bool) :
    IsMethodName Role.condition.methodStart
      (Identifier.conditionBase servicePrefix keyPrefix keyName openSuffix) := by
  unfold Identifier.conditionBase
  dsimp only
  split
  · exact (isMethodName_methodBase .condition _).append (by decide)
  · exact isMethodName_methodBase .condition _

/-- What answers a request for a method name is one itself. -/
theorem Allocator.Answers.isMethodName {free : Allocator} {request : Request} {method : String}
    (hanswers : free.Answers request method)
    (hbase : IsMethodName request.role.methodStart request.base) :
    IsMethodName request.role.methodStart method := by
  obtain heq | ⟨n, heq⟩ := hanswers.derived
  · rw [heq]
    exact hbase
  · rw [heq]
    exact hbase.append (Identifier.isSnake_toString n)

private theorem forall₂_members {α μ : Type} {answers : Request → String → Prop}
    {request : α → Request} {members : List α} {others : List Request} {methods : List String}
    (hmethods : List.Forall₂ answers (members.map request ++ others) methods)
    (entry : α → String → μ) :
    List.Forall₂ (fun member own => ∃ method, answers (request member) method ∧
      own = entry member method) members (members.zipWith entry methods) := by
  induction members generalizing methods with
  | nil => exact .nil
  | cons member members ih =>
    cases hmethods with
    | cons hanswers hrest => exact .cons ⟨_, hanswers, rfl⟩ (ih hrest)

/-- The methods of a service answer its requests one by one. -/
theorem answers_methods (service : Service) :
    List.Forall₂ Allocator.start.Answers (requests service) (methods service) :=
  Allocator.start.answers_takeAll (requests service)

/-- The actions of the plan are those of the service, each with its literal and the method it was
answered. -/
theorem forall₂_actions (service : Service) :
    List.Forall₂ (fun action member => member.literal = service.qualified action.name ∧
      Allocator.start.Answers (actionRequest action) member.method)
      service.actions (ofService service).actions := by
  have hmethods := answers_methods service
  rw [requests, List.append_assoc] at hmethods
  refine (forall₂_members hmethods _).imp ?_
  rintro action member ⟨method, hanswers, rfl⟩
  exact ⟨rfl, hanswers⟩

/-- The resource types of the plan, each with its parameters and the standard arguments it reads. -/
theorem forall₂_resources (service : Service) :
    List.Forall₂ (fun resource member => member.parameters = parameters resource.arn ∧
      member.standard = resource.arn.standardPlaceholders ∧
      Allocator.start.Answers (resourceRequest resource) member.method)
      service.resourceTypes (ofService service).resources := by
  have hmethods := List.forall₂_drop service.actions.length (answers_methods service)
  rw [requests, List.append_assoc, List.drop_left' (List.length_map _)] at hmethods
  refine (forall₂_members hmethods _).imp ?_
  rintro resource member ⟨method, hanswers, rfl⟩
  exact ⟨rfl, rfl, hanswers⟩

/-- However methods answer requests, those of condition keys are among them. -/
theorem forall₂_conditions_of {service : Service} {answers : Request → String → Prop}
    (hmethods : List.Forall₂ answers (requests service) (methods service)) :
    List.Forall₂ (fun condition member => member.literal = condition.key.literalPrefix ∧
      member.parameter = condition.key.parameter?.map
        (fun placeholder => ((Scope.ofList reservedArguments).parameter placeholder).1) ∧
      answers (conditionRequest service.servicePrefix condition) member.method)
      service.conditionKeys (ofService service).conditions := by
  have hmethods := List.forall₂_drop service.resourceTypes.length
    (List.forall₂_drop service.actions.length hmethods)
  rw [requests, List.append_assoc, List.drop_left' (List.length_map _),
    List.drop_left' (List.length_map _), ← List.append_nil (List.map _ service.conditionKeys)]
    at hmethods
  refine (forall₂_members hmethods _).imp ?_
  rintro condition member ⟨method, hanswers, rfl⟩
  exact ⟨rfl, rfl, hanswers⟩

/-- The condition keys of the plan, each with the text in front of its parameter. -/
theorem forall₂_conditions (service : Service) :
    List.Forall₂ (fun condition member => member.literal = condition.key.literalPrefix ∧
      member.parameter = condition.key.parameter?.map
        (fun placeholder => ((Scope.ofList reservedArguments).parameter placeholder).1) ∧
      Allocator.start.Answers (conditionRequest service.servicePrefix condition) member.method)
      service.conditionKeys (ofService service).conditions :=
  forall₂_conditions_of (answers_methods service)

/-- The method of a shared key goes to no condition key but that shared key itself. -/
theorem published_of_method_eq {service : Service} {index : Nat} {condition : Service.ConditionKey}
    {member : ConditionMember} (hcondition : service.conditionKeys[index]? = some condition)
    (hmember : (ofService service).conditions[index]? = some member) {key : GlobalKey}
    (hkey : key ∈ GlobalKey.all) (hmethod : member.method = key.method) :
    condition.key.raw = key.published := by
  obtain ⟨_, hown, _, _, hanswers⟩ :=
    Lists.exists_getElem?_of_forall₂ (forall₂_conditions service) hcondition
  obtain rfl := Option.some.inj (hmember.symm.trans hown)
  have htaken : member.method ∈ Allocator.start.scope.taken :=
    Allocator.mem_taken_start.mpr (.inr (hmethod ▸ List.mem_map_of_mem hkey))
  obtain ⟨hshared, hbase⟩ := hanswers.shared htaken
  obtain ⟨_, other, hother, hpublished, hsame⟩ := isShared_iff.mp hshared
  have heq : other = key := by
    apply List.inj_on_of_nodup_map Allocator.nodup_shared_start hother hkey
    rw [hsame, ← hbase, hmethod]
  rw [← heq, hpublished, conditionRequest]

/-- A key of the service has a method. -/
theorem exists_conditionMethod {service : Service} {key : String}
    (hdeclared : ∃ condition ∈ service.conditionKeys, condition.key.raw = key) :
    ∃ method, (ofService service).conditionMethod? service key = some method := by
  obtain ⟨condition, hmem, hraw⟩ := hdeclared
  obtain ⟨index, hindex⟩ : ∃ index, service.conditionKeys.findIdx? (·.key.raw == key) = some index := by
    rw [← Option.isSome_iff_exists, List.findIdx?_isSome, List.any_eq_true]
    exact ⟨condition, hmem, beq_iff_eq.mpr hraw⟩
  have hbound : index < (ofService service).conditions.length := by
    rw [← (forall₂_conditions service).length_eq]
    exact (List.findIdx?_eq_some_iff_findIdx_eq.mp hindex).1
  refine ⟨(ofService service).conditions[index].method, ?_⟩
  rw [conditionMethod?, hindex]
  simp [List.getElem?_eq_getElem hbound]

/-- The methods of all members, in the order in which they are given out. -/
def methodNames (naming : Naming) : List String :=
  naming.actions.map (·.method) ++ naming.resources.map (·.method) ++
    naming.conditions.map (·.method)

private theorem map_zipWith_take {α β μ : Type} {entry : α → β → μ} {view : μ → β}
    (hview : ∀ member method, view (entry member method) = method) (members : List α)
    (methods : List β) : (members.zipWith entry methods).map view = methods.take members.length := by
  induction members generalizing methods with
  | nil => rfl
  | cons member members ih =>
    cases methods with
    | nil => rfl
    | cons method methods => simp [hview, ih]

/-- The methods of the plan are those of the run, none left out and in the order of the requests. -/
theorem methodNames_ofService (service : Service) :
    (ofService service).methodNames = methods service := by
  have hlength : (((methods service).drop service.actions.length).drop
      service.resourceTypes.length).length ≤ service.conditionKeys.length := by
    rw [List.length_drop, List.length_drop, length_methods]
    omega
  simp only [methodNames, ofService]
  rw [map_zipWith_take (fun _ _ => rfl), map_zipWith_take (fun _ _ => rfl),
    map_zipWith_take (fun _ _ => rfl), List.take_of_length_le hlength, List.append_assoc,
    List.take_append_drop, List.take_append_drop]

/-- Every member of a service has its method. The methods of all members together are pairwise
different and none is reserved. Each is a usable name, which starts with `to_` for an action, with
`on_` for a resource type and with `if_` for a condition key. Nothing is asked of the names of the
members. -/
theorem methods_usable_and_distinct (service : Service) :
    (ofService service).actions.length = service.actions.length ∧
      (ofService service).resources.length = service.resourceTypes.length ∧
      (ofService service).conditions.length = service.conditionKeys.length ∧
      (ofService service).methodNames.Nodup ∧
      (∀ method ∈ (ofService service).methodNames, method ∉ reservedMethods) ∧
      (∀ member ∈ (ofService service).actions, IsMethodName "to_" member.method) ∧
      (∀ member ∈ (ofService service).resources, IsMethodName "on_" member.method) ∧
      ∀ member ∈ (ofService service).conditions, IsMethodName "if_" member.method := by
  have hactions := forall₂_actions service
  have hresources := forall₂_resources service
  have hconditions := forall₂_conditions service
  obtain ⟨hnodup, hoffers⟩ := Allocator.sound_start.takeAll (requests service)
  have hnames : (ofService service).methodNames =
      (Allocator.start.takeAll (requests service)).map (·.ident) :=
    methodNames_ofService service
  rw [hnames]
  refine ⟨hactions.length_eq.symm, hresources.length_eq.symm, hconditions.length_eq.symm, hnodup,
    ?_, ?_, ?_, ?_⟩
  · intro method hmethod
    exact Allocator.not_mem_reservedMethods_of_offers (hoffers method hmethod)
  · intro member hmember
    obtain ⟨action, _, _, hanswers⟩ := Lists.exists_of_mem_forall₂ hactions hmember
    exact hanswers.isMethodName (isMethodName_methodBase .action _)
  · intro member hmember
    obtain ⟨resource, _, _, _, hanswers⟩ := Lists.exists_of_mem_forall₂ hresources hmember
    exact hanswers.isMethodName (isMethodName_methodBase .resource _)
  · intro member hmember
    obtain ⟨condition, _, _, _, hanswers⟩ := Lists.exists_of_mem_forall₂ hconditions hmember
    exact hanswers.isMethodName (isMethodName_conditionBase _ _ _ _)

end PolicyForge.Naming
