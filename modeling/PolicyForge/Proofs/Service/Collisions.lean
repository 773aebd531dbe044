import PolicyForge.Proofs.Service.Methods

namespace PolicyForge.Naming

open Condition (GlobalKey)
open Identifier (Scope conditionBase methodBase)

/-- A method that is free no more after the earlier ones were given out: one that every type has,
that of a shared key, or one of the earlier ones. -/
def Taken (earlier : List String) (method : String) : Prop :=
  method ∈ reservedMethods ∨ method ∈ GlobalKey.all.map (·.method) ∨ method ∈ earlier

/-- Behind one more grant, a method is taken if it was before or is the new one. -/
theorem taken_concat {earlier : List String} {own method : String} :
    Taken (earlier ++ [own]) method ↔ Taken earlier method ∨ method = own := by
  rw [Taken, Taken, List.mem_append, List.mem_singleton, or_assoc, or_assoc]

/-- How a request is answered after the earlier methods were given out. -/
inductive Granted (earlier : List String) (request : Request) : String → Prop where
  /-- The method asked for is free. -/
  | free (hfree : ¬ Taken earlier request.base) : Granted earlier request request.base
  /-- The request is that of a shared key, and none before it took over the method of the key. -/
  | shared (hshared : request.isShared = true) (hfirst : request.base ∉ earlier) :
      Granted earlier request request.base
  /-- The method asked for is taken, and the number behind it is the least that makes it free. -/
  | numbered {n : Nat} (htaken : Taken earlier request.base)
      (hspent : request.isShared = true → request.base ∈ earlier) (htwo : 2 ≤ n)
      (hfree : ¬ Taken earlier (request.base ++ toString n))
      (hleast : ∀ m, 2 ≤ m → m < n → Taken earlier (request.base ++ toString m)) :
      Granted earlier request (request.base ++ toString n)

section

variable {earlier : List String} {request : Request} {method : String}

/-- A request is answered with another method just when the method it asks for is taken and not left
to it as a shared key. -/
theorem Granted.ne_base_iff (hgranted : Granted earlier request method) :
    method ≠ request.base ↔ Taken earlier request.base ∧
      (request.isShared = true → request.base ∈ earlier) := by
  cases hgranted with
  | free hfree => simp [hfree]
  | shared hshared hfirst => simp [hshared, hfirst]
  | @numbered n htaken hspent htwo hfree hleast =>
    exact ⟨fun _ => ⟨htaken, hspent⟩, fun _ => Scope.append_toString_ne request.base n⟩

/-- A request that is not granted its base is given the least number that was free. -/
theorem Granted.exists_number (hgranted : Granted earlier request method)
    (hne : method ≠ request.base) :
    ∃ n, 2 ≤ n ∧ method = request.base ++ toString n ∧ ¬ Taken earlier method ∧
      ∀ m, 2 ≤ m → m < n → Taken earlier (request.base ++ toString m) := by
  cases hgranted with
  | free hfree => exact absurd rfl hne
  | shared hshared hfirst => exact absurd rfl hne
  | @numbered n htaken hspent htwo hfree hleast => exact ⟨n, htwo, rfl, hfree, hleast⟩

end

namespace Allocator

variable {free : Allocator} {earlier : List String}

/-- What is free after the earlier methods were given out, and nothing else. -/
structure After (free : Allocator) (earlier : List String) : Prop where
  taken : ∀ method, method ∈ free.scope.taken ↔ Taken earlier method
  shared : ∀ method, method ∈ free.shared ↔
    method ∈ GlobalKey.all.map (·.method) ∧ method ∉ earlier
  nodup_shared : free.shared.Nodup

theorem after_start : start.After [] := by
  refine ⟨fun method => ?_, fun method => ?_, nodup_shared_start⟩
  · rw [mem_taken_start, Taken]
    simp [start]
  · simp [start]

/-- Each request is granted what the requests before it leave. -/
theorem After.granted_take (hafter : free.After earlier) (request : Request) :
    Granted earlier request (free.take request).1.ident := by
  by_cases htakes : request.isShared = true ∧ request.base ∉ earlier
  · obtain ⟨hshared, hfirst⟩ := htakes
    have hleft := (hafter.shared _).mpr ⟨base_mem_of_isShared hshared, hfirst⟩
    rw [take_of_shared hshared hleft]
    exact .shared hshared hfirst
  · have hspent : request.isShared = true → request.base ∈ earlier := fun hshared =>
      Classical.not_not.mp fun hfirst => htakes ⟨hshared, hfirst⟩
    rw [take_of_not_shared fun hshared hleft => ((hafter.shared _).mp hleft).2 (hspent hshared)]
    obtain ⟨hbase, heq⟩ | ⟨hbase, n, htwo, hfree, hleast, heq⟩ :=
      free.scope.allocate_cases request.base
    · rw [heq]
      exact .free fun htaken => hbase ((hafter.taken _).mpr htaken)
    · rw [heq]
      exact .numbered ((hafter.taken _).mp hbase) hspent htwo
        (fun htaken => hfree ((hafter.taken _).mpr htaken))
        fun m hle hlt => (hafter.taken _).mp (hleast m hle hlt)

theorem After.take (hafter : free.After earlier) (request : Request) :
    (free.take request).2.After (earlier ++ [(free.take request).1.ident]) := by
  obtain ⟨_, hleft, heq⟩ | heq := free.take_cases request
  · rw [heq]
    refine ⟨fun method => ?_, fun method => ?_, hafter.nodup_shared.erase _⟩
    · rw [hafter.taken, taken_concat]
      refine ⟨.inl, ?_⟩
      rintro (htaken | rfl)
      · exact htaken
      · exact .inr (.inl ((hafter.shared _).mp hleft).1)
    · rw [hafter.nodup_shared.mem_erase_iff, hafter.shared, List.mem_append, List.mem_singleton]
      tauto
  · obtain ⟨hfresh, htaken⟩ := free.scope.allocate_fresh request.base
    rw [heq]
    refine ⟨fun method => ?_, fun method => ?_, hafter.nodup_shared⟩
    · rw [htaken, List.mem_cons, hafter.taken, taken_concat, or_comm]
    · rw [hafter.shared, List.mem_append, List.mem_singleton]
      -- What the scope gives out was free, so it is not the method of a shared key.
      have hapart : method ∈ GlobalKey.all.map (·.method) →
          method ≠ (free.scope.allocate request.base).1.ident := by
        rintro hmethod rfl
        exact hfresh ((hafter.taken _).mpr (.inr (.inl hmethod)))
      tauto

/-- Every request is answered as the methods given out before it demand. -/
theorem After.granted_takeAll (hafter : free.After earlier) {requests : List Request} {index : Nat}
    {request : Request} {method : String} (hrequest : requests[index]? = some request)
    (hmethod : ((free.takeAll requests).map (·.ident))[index]? = some method) :
    Granted (earlier ++ ((free.takeAll requests).map (·.ident)).take index) request method := by
  induction requests generalizing free earlier index with
  | nil => cases hrequest
  | cons first requests ih =>
    rw [takeAll, List.map_cons] at hmethod ⊢
    cases index with
    | zero =>
      obtain rfl := Option.some.inj hrequest
      obtain rfl := Option.some.inj hmethod
      rw [List.take_zero, List.append_nil]
      exact hafter.granted_take _
    | succ index =>
      have hrest := ih (hafter.take first) hrequest hmethod
      rwa [List.append_assoc, List.singleton_append] at hrest

/-- The flag is raised just when the method is not the one asked for. A shared key takes over its
own method without it. -/
theorem collided_take_iff (free : Allocator) (request : Request) :
    (free.take request).1.collided = true ↔ (free.take request).1.ident ≠ request.base := by
  obtain ⟨_, _, heq⟩ | heq := free.take_cases request
  · simp [heq]
  · obtain ⟨_, hclaim⟩ | ⟨_, n, _, _, _, hclaim⟩ := free.scope.allocate_cases request.base
    · simp [heq, hclaim]
    · rw [heq, hclaim]
      exact iff_of_true rfl (Scope.append_toString_ne request.base n)

/-- The flag of each claim tells whether its method is another one than the base asked for. -/
theorem collided_takeAll_iff (free : Allocator) (requests : List Request) :
    List.Forall₂ (fun request claim => claim.collided = true ↔ claim.ident ≠ request.base)
      requests (free.takeAll requests) := by
  induction requests generalizing free with
  | nil => exact .nil
  | cons request requests ih => exact .cons (free.collided_take_iff request) (ih _)

end Allocator

/-- The reports are those of the members whose method is not the one they asked for. -/
theorem collisions_eq (service : Service) :
    (ofService service).collisions =
      (((requests service).zip (methods service)).filter
        fun answered => answered.2 ≠ answered.1.base).map fun answered =>
          { service := service.servicePrefix, role := answered.1.role, source := answered.1.source
            base := answered.1.base, resolved := answered.2 } := by
  have hflags : List.Forall₂
      (fun request claim => claim.collided = true ↔ claim.ident ≠ request.base)
      (requests service) (claims service) :=
    Allocator.start.collided_takeAll_iff (requests service)
  have hreports : (ofService service).collisions =
      ((requests service).zip (claims service)).filterMap fun claimed =>
        collision? service.servicePrefix claimed.1 claimed.2 :=
    rfl
  rw [hreports, ← List.filterMap_eq_map, ← List.filterMap_eq_filter, List.filterMap_filterMap,
    methods, List.zip_map_right, List.filterMap_map]
  apply List.filterMap_congr
  rintro ⟨request, claim⟩ hmem
  have hflag := List.forall₂_zip hflags hmem
  by_cases hsame : claim.ident = request.base
  · simp [collision?, hflag, hsame, Option.guard]
  · simp [collision?, hflag, hsame, Option.guard]

/-- Every member has a method, and asks for the one that its name is derived to. There is one report
for every member that has another method than the one it asked for, in the order of the members, and
there are no others. A member has another method just when the one it asked for is reserved or was
given out before, unless it is the first to take over the method of a shared key that it is. The
other method is the one asked for with a number behind it, the least from two on for which it is
neither reserved nor given out before. -/
theorem collisions_exact (service : Service) :
    let naming := ofService service
    let methods := naming.methodNames
    let requests : List Request :=
      service.actions.map (fun action =>
        ⟨.action, action.name, methodBase .action action.name⟩) ++
      service.resourceTypes.map (fun resource =>
        ⟨.resource, resource.name, methodBase .resource resource.name⟩) ++
      service.conditionKeys.map fun condition =>
        ⟨.condition, condition.key.raw, conditionBase service.servicePrefix
          condition.key.servicePrefix condition.key.name condition.key.isOpenSuffix⟩
    (naming.actions.length = service.actions.length ∧
        naming.resources.length = service.resourceTypes.length ∧
        naming.conditions.length = service.conditionKeys.length) ∧
      naming.collisions =
        ((requests.zip methods).filter fun answered => answered.2 ≠ answered.1.base).map
          (fun answered =>
            { service := service.servicePrefix, role := answered.1.role, source := answered.1.source
              base := answered.1.base, resolved := answered.2 }) ∧
      ∀ index request method, requests[index]? = some request → methods[index]? = some method →
        (method ≠ request.base ↔ Taken (methods.take index) request.base ∧
          ((request.role = .condition ∧ ∃ key ∈ GlobalKey.all,
              key.published = request.source ∧ key.method = request.base) →
            request.base ∈ methods.take index)) ∧
        (method ≠ request.base → ∃ n, 2 ≤ n ∧ method = request.base ++ toString n ∧
          ¬ Taken (methods.take index) method ∧
          ∀ m, 2 ≤ m → m < n → Taken (methods.take index) (request.base ++ toString m)) := by
  intro naming methods requests
  have hmethods : methods = (Allocator.start.takeAll requests).map (·.ident) :=
    methodNames_ofService service
  refine ⟨⟨?_, ?_, ?_⟩, ?_, ?_⟩
  · exact (forall₂_actions service).length_eq.symm
  · exact (forall₂_resources service).length_eq.symm
  · exact (forall₂_conditions service).length_eq.symm
  · rw [hmethods]
    exact collisions_eq service
  · intro index request method hrequest hmethod
    rw [hmethods] at hmethod ⊢
    have hgranted := Allocator.after_start.granted_takeAll hrequest hmethod
    rw [List.nil_append] at hgranted
    rw [← isShared_iff]
    exact ⟨hgranted.ne_base_iff, hgranted.exists_number⟩

/-- A service in which members of every kind ask for methods that others were given: an action even
for the one that another action was given instead of its own, and a condition key for that of a
shared key. The shared key itself is given its own method. -/
def crowd : Service where
  name := "Crowd"
  servicePrefix := "crowd"
  url := ""
  actions := ["PutItem", "Put-Item", "PutItem2"].map fun name =>
    { name, description := "", url := "", accessLevel := .write, resourceTypes := []
      conditions := [], dependentActions := [] }
  resourceTypes := ["item", "Item"].map fun name =>
    { name, url := "", arn := ⟨"*", [.literal "*"]⟩, conditionKeys := [] }
  conditionKeys :=
    [("aws", "source-ip"), ("aws", "SourceIp"), ("crowd", "Size"), ("crowd", "size")].map
      fun (servicePrefix, name) =>
        { key := ⟨servicePrefix ++ ":" ++ name, servicePrefix, name, .plain⟩, description := ""
          url := "", valueType := .string }

theorem collisions_exact_crowd :
    let earlier := ["to_put_item", "to_put_item2"]
    (ofService crowd).collisions =
        [⟨"crowd", .action, "Put-Item", "to_put_item", "to_put_item2"⟩,
          ⟨"crowd", .action, "PutItem2", "to_put_item2", "to_put_item22"⟩,
          ⟨"crowd", .resource, "Item", "on_item", "on_item2"⟩,
          ⟨"crowd", .condition, "aws:source-ip", "if_aws_source_ip", "if_aws_source_ip2"⟩,
          ⟨"crowd", .condition, "crowd:size", "if_size", "if_size2"⟩] ∧
      (ofService crowd).methodNames.take 2 = earlier ∧
      ∃ n, 2 ≤ n ∧ "to_put_item22" = "to_put_item2" ++ toString n ∧
        ¬ Taken earlier "to_put_item22" ∧
        ∀ m, 2 ≤ m → m < n → Taken earlier ("to_put_item2" ++ toString m) := by
  intro earlier
  obtain ⟨-, hcollisions, hmembers⟩ := collisions_exact crowd
  have hmethods : (ofService crowd).methodNames =
      earlier ++ ["to_put_item22", "on_item", "on_item2", "if_aws_source_ip2", "if_aws_source_ip",
        "if_size", "if_size2"] := by
    decide +kernel
  obtain ⟨-, hnumber⟩ := hmembers 2 ⟨.action, "PutItem2", "to_put_item2"⟩ "to_put_item22"
    (by decide +kernel) (by rw [hmethods]; rfl)
  rw [hmethods] at hcollisions hnumber
  refine ⟨hcollisions.trans (by decide +kernel), ?_, hnumber (by decide)⟩
  rw [hmethods]
  rfl

end PolicyForge.Naming
