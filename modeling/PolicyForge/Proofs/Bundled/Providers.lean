import PolicyForge.Bundled.Providers
import PolicyForge.Proofs.Service.Calls
import PolicyForge.Proofs.Text.Blank

namespace PolicyForge.Bundled

open Condition (GlobalKey)
open Provider (Call Comparison)

/-- Every bundled catalog is accepted, so the three providers exist. -/
theorem exists_service {record : Catalog.Record} (hrecord : record ∈ catalogs) :
    ∃ service, Service.ofRecord record = .ok service := by
  have haccepted : ∀ record ∈ catalogs, (Service.ofRecord record).toOption.isSome = true := by
    -- Texts that are written only to be read again are what makes evaluating slow.
    unfold Service.ofRecord Service.checkInOrder
    delta Service.checkAction Service.checkResource Service.checkArn Arn.Template.parse
      AccessLevel.ofLabel? Service.checkKey Service.resolveKeys Service.resolveKey
      Service.qualifyKey Service.resolveRows Service.resolveRow
    simp only [Text.toLower_beq, Text.trim, String.toList_ofList, Text.isEmpty_ofList]
    -- One catalog at a time takes less memory.
    rw [catalogs, List.forall_mem_cons, List.forall_mem_cons, List.forall_mem_cons]
    refine ⟨?_, ?_, ?_, List.forall_mem_nil _⟩
    all_goals decide +kernel
  exact Failing.exists_eq_ok_of_isSome (haccepted record hrecord)

/-- A catalog is found by its prefix, which no other bundled catalog has. -/
theorem provider?_eq_some {record : Catalog.Record} (hrecord : record ∈ catalogs) {service : Service}
    (hservice : Service.ofRecord record = .ok service) :
    provider? record.servicePrefix = some service.provider := by
  have hfind : ∀ record ∈ catalogs,
      catalogs.find? (·.servicePrefix == record.servicePrefix) = some record := by
    decide +kernel
  rw [provider?, hfind record hrecord]
  simp [hservice, Except.toOption]

/-- The shared keys that the catalogs declare themselves hold text, and are compared as the shared
methods compare them. -/
theorem shared_entries {record : Catalog.Record} (hrecord : record ∈ catalogs)
    {entry : Catalog.KeyEntry} (hentry : entry ∈ record.conditionKeys) {key : GlobalKey}
    (hkey : key ∈ GlobalKey.all)
    (hpublished : Service.qualifyKey (Text.trim record.servicePrefix) entry.key = key.published) :
    Condition.ValueType.ofLabel? (entry.valueType.getD "") = some .string ∧
      (key.form = .tag ∨ key.form = .values .stringLike) := by
  have hentries : ∀ record ∈ catalogs, ∀ entry ∈ record.conditionKeys, ∀ key ∈ GlobalKey.all,
      Service.qualifyKey (Text.trim record.servicePrefix) entry.key = key.published →
        Condition.ValueType.ofLabel? (entry.valueType.getD "") = some .string ∧
          (key.form = .tag ∨ key.form = .values .stringLike) := by
    delta Service.qualifyKey
    simp only [Text.trim, String.toList_ofList]
    decide +kernel
  exact hentries record hrecord entry hentry key hkey hpublished

/-- Every bundled provider drives a plain statement and nothing more. From any statement, a run of
calls of its methods reaches what the changes that the calls stand for reach, where a resource is
filled from the defaults in force when it is added. Later calls leave the resources that are there,
and setting new defaults changes the defaults alone. Where a catalog declares a shared key itself,
the method that takes its place makes the change that the shared method of that name makes. -/
theorem calls_drive_statement {record : Catalog.Record} (hrecord : record ∈ catalogs) :
    ∃ service, Service.ofRecord record = .ok service ∧
      provider? record.servicePrefix = some service.provider ∧
      (∀ calls : List Call, (∀ call ∈ calls, call.Fits service) → ∀ statement,
        service.provider.run? statement calls =
          some (statement.run (Provider.changes service statement.arnDefaults calls))) ∧
      (∀ calls more : List Call, (∀ call ∈ calls ++ more, call.Fits service) → ∀ statement,
        ∃ reached later, service.provider.run? statement calls = some reached ∧
          service.provider.run? statement (calls ++ more) = some later ∧
          reached.resources <+: later.resources) ∧
      (∀ statement defaults, service.provider.call? statement (.plain (.setArnDefaults defaults)) =
        some { statement with arnDefaults := defaults }) ∧
      ∀ key ∈ GlobalKey.all, ∀ index member,
        (Naming.ofService service).conditions[index]? = some member → member.method = key.method →
          ∀ parameter (comparison : Comparison) defaults,
            (Call.condition index parameter comparison).changes service defaults =
              [key.step ⟨parameter, comparison.values, comparison.truth, comparison.operator⟩] := by
  obtain ⟨service, hservice⟩ := exists_service hrecord
  have hruns : ∀ calls : List Call, (∀ call ∈ calls, call.Fits service) → ∀ statement,
      service.provider.run? statement calls =
        some (statement.run (Provider.changes service statement.arnDefaults calls)) :=
    fun _ hfits => Provider.run?_eq_run hservice hfits
  refine ⟨service, hservice, provider?_eq_some hrecord hservice, hruns, ?_, fun _ _ => rfl, ?_⟩
  · intro calls more hfits statement
    have hcalls :=
      hruns calls (fun call hcall => hfits call (List.mem_append_left more hcall)) statement
    have hmore := hruns more (fun call hcall => hfits call (List.mem_append_right calls hcall))
    have hboth := Provider.run?_append service.provider statement calls more
    rw [hcalls, Option.bind_some, hmore] at hboth
    exact ⟨_, _, hcalls, hboth, Provider.resources_prefix_run _ _⟩
  · intro key hkey index member hmember hmethod parameter comparison defaults
    obtain ⟨condition, hcondition, _⟩ :=
      Lists.exists_getElem?_of_forall₂ (Naming.forall₂_conditions service).flip hmember
    have hraw := Naming.published_of_method_eq hcondition hmember hkey hmethod
    obtain ⟨entry, hentry, hparse, htype⟩ :=
      Service.exists_parse_of_mem_conditionKeys hservice (List.mem_of_getElem? hcondition)
    have hqualified := (Condition.KeyTemplate.parse?_eq_some hparse).1
    rw [hraw] at hqualified
    rw [← hqualified] at hparse
    obtain ⟨hstring, hform⟩ := shared_entries hrecord hentry hkey
      ((Service.ofRecord_eq_ok hservice).1 ▸ hqualified.symm)
    rw [hstring] at htype
    exact Provider.changes_eq_step_of_published hcondition hkey hparse hform
      (Option.some.inj htype).symm parameter comparison defaults

/-- The template of the resource type for widgets. -/
def widgetTemplate : Arn.Template where
  raw := "arn:${Partition}:widgets:${Region}:${Account}:widget/${Id}"
  segments :=
    [.literal "arn:", .placeholder "Partition", .literal ":widgets:", .placeholder "Region",
      .literal ":", .placeholder "Account", .literal ":widget/", .placeholder "Id"]

/-- A resource, then other defaults, then a condition under a key without a prefix. -/
def widgetCalls : List Call :=
  [.resource 0 ["w-1"] { region := some "eu-west-1" },
    .plain (.setArnDefaults { account := "123456789012" }),
    .clause "Color" ["red"] .stringLike]

theorem calls_drive_statement_widgets :
    ∃ (provider : Provider) (reached : Statement), provider? "widgets" = some provider ∧
      provider.run? .empty widgetCalls = some reached ∧
      reached.resources = ["arn:aws:widgets:eu-west-1:*:widget/w-1"] ∧
      reached.arnDefaults.account = "123456789012" ∧
      reached.conditions = [(.stringLike, [("widgets:Color", ["red"])])] := by
  have hbundled : widgets ∈ catalogs := List.mem_cons_self
  obtain ⟨service, hservice, hprovider, hruns, _⟩ := calls_drive_statement hbundled
  obtain ⟨hnamed, _, _, _, hresources, _⟩ := Service.ofRecord_eq_ok hservice
  have hfirst : widgets.resourceTypes[0]? = some widgetsResources[0] := rfl
  obtain ⟨resource, _, hresource, hcheck⟩ := hresources.exists_getElem? hfirst
  obtain ⟨_, _, arn, _, harn, _, rfl⟩ := Service.checkResource_eq_ok hcheck
  have hparse : Arn.Template.parse (Text.trim (widgetsResources[0].arn.getD "")) =
      .ok widgetTemplate := by
    decide +kernel
  have hown := (Service.checkArn_eq_ok harn).2
  rw [hparse, Except.ok.injEq] at hown
  subst hown
  have htrimmed : Text.trim widgets.servicePrefix = "widgets" := by decide +kernel
  rw [htrimmed] at hnamed
  have hcount : ["w-1"].length = widgetTemplate.customPlaceholders.length := by decide +kernel
  have hfits : ∀ call ∈ widgetCalls, call.Fits service := by
    simp only [widgetCalls, List.forall_mem_cons, Call.Fits, hresource]
    exact ⟨⟨_, rfl, hcount⟩, trivial, trivial, List.forall_mem_nil _⟩
  refine ⟨_, _, hprovider, hruns widgetCalls hfits .empty, ?_⟩
  have hchanges : Provider.changes service {} widgetCalls =
      [.addResource "arn:aws:widgets:eu-west-1:*:widget/w-1",
        .setArnDefaults { account := "123456789012" },
        .addCondition "widgets:Color" ["red"] .stringLike] := by
    have hfill : widgetTemplate.fill (Provider.placeholderValue? widgetTemplate ["w-1"]
        { region := some "eu-west-1" } {}) = "arn:aws:widgets:eu-west-1:*:widget/w-1" := by
      decide +kernel
    have hcolon : ':' ∉ "Color".toList := by decide
    simp only [widgetCalls, Provider.changes, Call.changes, hresource, hnamed, hcolon,
      Option.toList_some, List.map_singleton, hfill, if_false]
    rfl
  have hstart : Statement.empty.arnDefaults = {} := rfl
  rw [hstart, hchanges]
  decide

end PolicyForge.Bundled
