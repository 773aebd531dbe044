import PolicyForge.Json.Record
import PolicyForge.Proofs.Failing
import PolicyForge.Proofs.Ordered

namespace PolicyForge.Json

open Ordered (latest)

/-- All that is written for a field: the values of the members of this name in an object, and the
item at its place in an array. -/
def written (fields : List String) (field : String) : Json → List Json
  | object members => (members.filter (·.1 == field)).map (·.2)
  | array items => items[fields.idxOf field]?.toList
  | _ => []

/-- The members of an object. -/
def members : Json → List (String × Json)
  | object members => members
  | _ => []

/-- The items of an array. -/
def items : Json → List Json
  | array items => items
  | _ => []

/-- The value that is given, if one is. -/
def Entry.value? : Entry → Option Json
  | given value => some value
  | _ => none

/-- A known field that stands at most once has the value that a lookup finds. -/
theorem values_eq_lookup {members : List (String × Json)} {fields : List String}
    (honce : ((members.map (·.1)).filter fields.contains).Nodup) {field : String}
    (hfield : field ∈ fields) :
    (members.filter (·.1 == field)).map (·.2) = (members.lookup field).toList := by
  induction members with
  | nil => rfl
  | cons member members ih =>
    obtain ⟨name, value⟩ := member
    rw [List.map_cons] at honce
    by_cases hname : name = field
    · subst hname
      rw [List.filter_cons_of_pos (by simpa using hfield), List.nodup_cons] at honce
      have hnone : members.filter (·.1 == name) = [] := by
        rw [List.filter_eq_nil_iff]
        intro other hother heq
        have hsame : other.1 = name := by simpa using heq
        apply honce.1
        exact List.mem_filter.mpr
          ⟨List.mem_map.mpr ⟨other, hother, hsame⟩, by simpa using hfield⟩
      simp [hnone]
    · have hrest := honce.sublist ((List.sublist_cons_self name _).filter fields.contains)
      rw [List.filter_cons_of_neg (by simpa using hname), List.lookup_cons,
        beq_false_of_ne (Ne.symm hname)]
      exact ih hrest

/-- What is written for a field of a record is written once, and is the value of the field. -/
theorem written_of_record? {fields : List String} {json : Json} {entry : String → Entry}
    (hrecord : json.record? fields = some entry) {field : String} (hfield : field ∈ fields) :
    json.written fields field = (entry field).value?.toList := by
  unfold record? at hrecord
  split at hrecord
  · rename_i members
    dsimp only at hrecord
    split at hrecord
    · rename_i honce
      obtain rfl := Option.some.inj hrecord
      rw [written, values_eq_lookup (Ordered.length_eraseDups_eq_iff.mp (by simpa using honce))
        hfield]
      dsimp only
      cases members.lookup field <;> rfl
    · cases hrecord
  · rename_i items
    split at hrecord
    · obtain rfl := Option.some.inj hrecord
      rw [written]
      dsimp only
      cases items[fields.idxOf field]? <;> rfl
    · cases hrecord
  · cases hrecord

/-- What is read of an entry is its value when it has one, and the default otherwise. -/
theorem Entry.orDefault_eq_some {α : Type} {decode : Json → Option α} {fallback result : α}
    {entry : Entry} (hread : entry.orDefault decode fallback = some result) :
    (∃ value, entry.value? = some value ∧ decode value = some result) ∨
      entry.value? = none ∧ result = fallback := by
  cases entry with
  | given value => exact .inl ⟨value, rfl, hread⟩
  | omitted => exact .inr ⟨rfl, (Option.some.inj hread).symm⟩
  | cutOff => exact .inr ⟨rfl, (Option.some.inj hread).symm⟩

section

variable {α : Type} {decode : Json → Option α} {fields : List String} {json : Json}
  {entry : String → Entry} (hrecord : json.record? fields = some entry) {field : String}
  (hfield : field ∈ fields)

include hrecord hfield

/-- What the list in a field is read as, item by item. -/
theorem forall₂_of_list? {results : List α}
    (hread : (entry field).orDefault (list? decode) [] = some results) :
    List.Forall₂ (fun item result => decode item = some result)
      ((json.written fields field).flatMap items) results := by
  rw [written_of_record? hrecord hfield]
  obtain ⟨value, hvalue, hread⟩ | ⟨hmissing, rfl⟩ := Entry.orDefault_eq_some hread
  · unfold list? at hread
    split at hread
    · simpa [hvalue, items] using Failing.mapM_eq_some_iff.mp hread
    · cases hread
  · simp [hmissing]

/-- What the map in a field is read as, name by name. -/
theorem forall₂_of_map? {results : List (String × α)}
    (hread : (entry field).orDefault (map? decode) [] = some results) :
    List.Forall₂ (fun member result => member.1 = result.1 ∧ decode member.2 = some result.2)
      (latest ((json.written fields field).flatMap members)) results := by
  rw [written_of_record? hrecord hfield]
  obtain ⟨value, hvalue, hread⟩ | ⟨hmissing, rfl⟩ := Entry.orDefault_eq_some hread
  · unfold map? at hread
    split at hread
    · rename_i own
      obtain ⟨decoded, hdecoded, hresults⟩ := Option.bind_eq_some_iff.mp hread
      obtain rfl := Option.some.inj hresults
      have hmatched : List.Forall₂
          (fun member result => member.1 = result.1 ∧ decode member.2 = some result.2) own
          decoded := by
        apply (Failing.mapM_eq_some_iff.mp hdecoded).imp
        intro member result hmember
        obtain ⟨value, hvalue, rfl⟩ := Option.map_eq_some_iff.mp hmember
        exact ⟨rfl, hvalue⟩
      rw [Ordered.foldl_replace]
      simpa [hvalue, members] using
        Ordered.forall₂_latest (fun value result => decode value = some result) hmatched
    · cases hread
  · simp [hmissing, Ordered.latest]

end

end PolicyForge.Json
