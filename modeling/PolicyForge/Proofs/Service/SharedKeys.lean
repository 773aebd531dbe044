import PolicyForge.Proofs.Service.Collisions
import PolicyForge.Proofs.Service.References

namespace PolicyForge.Naming

open Condition (GlobalKey KeyTemplate)
open Identifier (methodBase)

/-- In another service than their own, shared keys ask for their own methods. -/
theorem conditionBase_of_published {servicePrefix : String} (hforeign : servicePrefix ≠ "aws")
    {key : GlobalKey} (hkey : key ∈ GlobalKey.all) {template : KeyTemplate}
    (hparse : KeyTemplate.parse? key.published = some template) :
    Identifier.conditionBase servicePrefix template.servicePrefix template.name
      template.isOpenSuffix = key.method := by
  have hparts : ∀ key ∈ GlobalKey.all,
      (KeyTemplate.parse? key.published).map (fun template =>
        (template.servicePrefix, template.isOpenSuffix,
          methodBase .condition ("aws" ++ "-" ++ template.name))) =
      some ("aws", false, key.method) := by
    decide +kernel
  have hown := hparts key hkey
  rw [hparse, Option.map_some, Option.some.injEq, Prod.mk.injEq, Prod.mk.injEq] at hown
  obtain ⟨hservice, hending, hmethod⟩ := hown
  have hqualifier : Identifier.conditionQualifier servicePrefix "aws" = some "aws" := by
    have hlong : Identifier.webIdentityProviders.lookup "aws" = none := by decide
    have hqualified : ("aws" == servicePrefix) = false := beq_false_of_ne hforeign.symm
    simp [Identifier.conditionQualifier, hlong, hqualified]
  rw [Identifier.conditionBase, hservice, hending, hqualifier]
  exact hmethod

section

variable {record : Catalog.Record} {service : Service}

/-- A published key in the catalog of another service asks for its published method and is shared.
-/
theorem isShared_of_published (hchecked : Service.ofRecord record = .ok service)
    (hforeign : service.servicePrefix ≠ "aws") {condition : Service.ConditionKey}
    (hcondition : condition ∈ service.conditionKeys) {key : GlobalKey} (hkey : key ∈ GlobalKey.all)
    (hraw : condition.key.raw = key.published) :
    (conditionRequest service.servicePrefix condition).base = key.method ∧
      (conditionRequest service.servicePrefix condition).isShared = true := by
  have hparse := Service.parse?_raw_of_mem_conditionKeys hchecked hcondition
  rw [hraw] at hparse
  have hbase : (conditionRequest service.servicePrefix condition).base = key.method :=
    conditionBase_of_published hforeign hkey hparse
  exact ⟨hbase, isShared_iff.mpr ⟨rfl, key, hkey, hraw.symm, hbase.symm⟩⟩

/-- Only condition keys ask for what condition keys ask for. -/
theorem exists_of_mem_requests {request : Request} (hrequest : request ∈ requests service)
    (hrole : request.role = .condition) :
    ∃ condition ∈ service.conditionKeys,
      conditionRequest service.servicePrefix condition = request := by
  rw [requests, List.mem_append, List.mem_append] at hrequest
  obtain (haction | hresource) | hcondition := hrequest
  · obtain ⟨_, _, rfl⟩ := List.mem_map.mp haction
    cases hrole
  · obtain ⟨_, _, rfl⟩ := List.mem_map.mp hresource
    cases hrole
  · exact List.mem_map.mp hcondition

/-- A shared key is told by the method it asks for. -/
theorem source_eq_of_isShared {request other : Request} (hshared : request.isShared = true)
    (hother : other.isShared = true) (hbase : request.base = other.base) :
    request.source = other.source := by
  obtain ⟨_, key, hkey, hsource, hmethod⟩ := isShared_iff.mp hshared
  obtain ⟨_, own, hown, hotherSource, hotherMethod⟩ := isShared_iff.mp hother
  have hsame : key = own := by
    apply List.inj_on_of_nodup_map Allocator.nodup_shared_start hkey hown
    rw [hmethod, hotherMethod, hbase]
  rw [← hsource, ← hotherSource, hsame]

/-- No method of a shared key is asked for twice by shared keys. -/
theorem nodup_shared_bases (hkeys : (service.conditionKeys.map (·.key.raw)).Nodup) :
    (((requests service).filter (·.isShared)).map (·.base)).Nodup := by
  have hactions : ((service.actions.map actionRequest).filter (·.isShared)) = [] := by
    simp [Request.isShared, actionRequest]
  have hresources : ((service.resourceTypes.map resourceRequest).filter (·.isShared)) = [] := by
    simp [Request.isShared, resourceRequest]
  rw [requests, List.filter_append, List.filter_append, hactions, hresources, List.nil_append,
    List.nil_append]
  have hsources : ((service.conditionKeys.map (conditionRequest service.servicePrefix)).map
      (·.source)).Nodup := by
    rw [List.map_map]
    exact hkeys
  have hfiltered := (List.pairwise_map.mp hsources).filter (·.isShared)
  refine List.pairwise_map.mpr (hfiltered.imp_of_mem ?_)
  intro request other hrequest hother hne hbase
  exact hne (source_eq_of_isShared (List.mem_filter.mp hrequest).2 (List.mem_filter.mp hother).2 hbase)

end

/-- While no two shared keys ask for one method and all that they ask for are left, each is given
the one it asks for, whatever the requests between them are. -/
theorem Allocator.takeAll_shared {free : Allocator} {requests : List Request}
    (hleft : ∀ request ∈ requests, request.isShared = true → request.base ∈ free.shared)
    (hnodup : ((requests.filter (·.isShared)).map (·.base)).Nodup) :
    List.Forall₂ (fun request method => request.isShared = true → method = request.base) requests
      ((free.takeAll requests).map (·.ident)) := by
  induction requests generalizing free with
  | nil => exact .nil
  | cons request requests ih =>
    have hrest := fun other hother => hleft other (List.mem_cons_of_mem request hother)
    rw [takeAll, List.map_cons]
    cases hshared : request.isShared with
    | true =>
      rw [List.filter_cons_of_pos hshared, List.map_cons, List.nodup_cons] at hnodup
      obtain ⟨hfirst, hnodup⟩ := hnodup
      rw [take_of_shared hshared (hleft request List.mem_cons_self hshared)]
      refine .cons (fun _ => rfl) (ih ?_ hnodup)
      intro other hother hotherShared
      have hne : other.base ≠ request.base := fun heq => hfirst
        (List.mem_map.mpr ⟨other, List.mem_filter.mpr ⟨hother, hotherShared⟩, heq⟩)
      exact (List.mem_erase_of_ne hne).mpr (hrest other hother hotherShared)
    | false =>
      rw [List.filter_cons_of_neg (by simp [hshared])] at hnodup
      rw [take_of_not_shared fun htrue => absurd htrue (by simp [hshared])]
      refine .cons (fun htrue => absurd htrue (by simp [hshared])) (ih hrest hnodup)

/-- Shared requests get their base: no other request can take it before them, and no two of them
have the same. -/
theorem base_of_isShared {service : Service}
    (hkeys : (service.conditionKeys.map (·.key.raw)).Nodup) :
    List.Forall₂ (fun request method => request.isShared = true → method = request.base)
      (requests service) (methods service) :=
  Allocator.takeAll_shared (fun _ _ => base_mem_of_isShared) (nodup_shared_bases hkeys)

/-- The methods of shared keys are kept for them. A member of a service that has the method of a
shared key is the condition key that is published as that shared key. In a service with another
prefix than the shared keys have, every such condition key has the method, and no collision is
reported of it. -/
theorem shared_methods_kept {record : Catalog.Record} {service : Service}
    (hchecked : Service.ofRecord record = .ok service) :
    (∀ member ∈ (ofService service).actions, ∀ key ∈ GlobalKey.all, member.method ≠ key.method) ∧
    (∀ member ∈ (ofService service).resources, ∀ key ∈ GlobalKey.all,
      member.method ≠ key.method) ∧
    (∀ (index : Nat) (condition : Service.ConditionKey) (member : ConditionMember),
      service.conditionKeys[index]? = some condition →
      (ofService service).conditions[index]? = some member → ∀ key ∈ GlobalKey.all,
        member.method = key.method → condition.key.raw = key.published) ∧
    (service.servicePrefix ≠ "aws" → ∀ (index : Nat) (condition : Service.ConditionKey),
      service.conditionKeys[index]? = some condition → ∀ key ∈ GlobalKey.all,
        condition.key.raw = key.published →
        (∃ member, (ofService service).conditions[index]? = some member ∧
          member.method = key.method) ∧
        ∀ collision ∈ (ofService service).collisions, collision.role = .condition →
          collision.source ≠ condition.key.raw) := by
  have htaken : ∀ key ∈ GlobalKey.all, key.method ∈ Allocator.start.scope.taken := fun key hkey =>
    Allocator.mem_taken_start.mpr (.inr (List.mem_map_of_mem hkey))
  have hanswered := base_of_isShared (Service.closed_of_ofRecord hchecked).keysDistinct
  refine ⟨?_, ?_, ?_, ?_⟩
  · intro member hmember key hkey hmethod
    obtain ⟨action, _, _, hanswers⟩ := Lists.exists_of_mem_forall₂ (forall₂_actions service) hmember
    have hshared := (hanswers.shared (hmethod ▸ htaken key hkey)).1
    cases (isShared_iff.mp hshared).1
  · intro member hmember key hkey hmethod
    obtain ⟨resource, _, _, _, hanswers⟩ :=
      Lists.exists_of_mem_forall₂ (forall₂_resources service) hmember
    have hshared := (hanswers.shared (hmethod ▸ htaken key hkey)).1
    cases (isShared_iff.mp hshared).1
  · intro index condition member hcondition hmember key hkey hmethod
    exact published_of_method_eq hcondition hmember hkey hmethod
  · intro hforeign index condition hcondition key hkey hraw
    constructor
    · obtain ⟨hbase, hshared⟩ := isShared_of_published hchecked hforeign
        (List.mem_of_getElem? hcondition) hkey hraw
      obtain ⟨member, hmember, _, _, hmethod⟩ :=
        Lists.exists_getElem?_of_forall₂ (forall₂_conditions_of hanswered) hcondition
      exact ⟨member, hmember, (hmethod hshared).trans hbase⟩
    · intro collision hcollision hrole hsource
      rw [collisions_eq] at hcollision
      obtain ⟨⟨request, method⟩, hmem, rfl⟩ := List.mem_map.mp hcollision
      obtain ⟨hzip, hne⟩ := List.mem_filter.mp hmem
      obtain ⟨other, hother, rfl⟩ := exists_of_mem_requests (List.of_mem_zip hzip).1 hrole
      obtain ⟨_, hshared⟩ :=
        isShared_of_published hchecked hforeign hother hkey (hsource.trans hraw)
      have hsame : method = (conditionRequest service.servicePrefix other).base :=
        List.forall₂_zip hanswered hzip hshared
      simp [hsame] at hne

/-- A catalog in which keys that ask for the methods of shared keys stand before and between the
shared keys themselves. -/
def mirror : Catalog.Record where
  name := "Mirror"
  servicePrefix := "mirror"
  conditionKeys :=
    [{ key := "aws-source-ip" }, { key := "aws:RequestTag/<TagKey>" }, { key := "aws:SourceIp" },
      { key := "aws:source-ip" }, { key := "aws:RequestTag/$\x7bTagKey\x7d" }]

theorem shared_methods_kept_mirror :
    ∃ service, Service.ofRecord mirror = .ok service ∧ service.servicePrefix = "mirror" ∧
      (ofService service).conditions[2]?.map (·.method) = some "if_aws_source_ip" ∧
      (ofService service).conditions[4]?.map (·.method) = some "if_aws_request_tag" := by
  have hmembers : (Service.ofRecord mirror).toOption.map (fun service =>
      (service.servicePrefix, service.conditionKeys.map (·.key.raw))) =
      some ("mirror", ["mirror:aws-source-ip", "aws:RequestTag/<TagKey>", "aws:SourceIp",
        "aws:source-ip", "aws:RequestTag/$\x7bTagKey\x7d"]) := by
    decide +kernel
  obtain ⟨service, hok, hmembers⟩ := Failing.exists_of_toOption_map_eq_some hmembers
  obtain ⟨hservice, hraws⟩ := Prod.mk.inj hmembers
  have hgiven : ∀ index : Nat, ∀ key ∈ GlobalKey.all,
      (service.conditionKeys.map (·.key.raw))[index]? = some key.published →
      (ofService service).conditions[index]?.map (·.method) = some key.method := by
    intro index key hkey hraw
    rw [List.getElem?_map, Option.map_eq_some_iff] at hraw
    obtain ⟨condition, hcondition, hraw⟩ := hraw
    obtain ⟨⟨member, hmember, hmethod⟩, _⟩ := (shared_methods_kept hok).2.2.2
      (by rw [hservice]; decide) index condition hcondition key hkey hraw
    rw [hmember, Option.map_some, hmethod]
  refine ⟨service, hok, hservice, ?_, ?_⟩
  · exact hgiven 2 (.ofKind "if_aws_source_ip" "aws:SourceIp" .ipAddress) (by decide)
      (by rw [hraws]; rfl)
  · exact hgiven 4 ⟨"if_aws_request_tag", "aws:RequestTag", .tag⟩ (by decide) (by rw [hraws]; rfl)

end PolicyForge.Naming
