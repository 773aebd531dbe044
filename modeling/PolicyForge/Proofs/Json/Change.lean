import PolicyForge.Proofs.Json.Record

namespace PolicyForge.Json

/-- Which of the values inside a value are records. -/
inductive Schema where
  /-- None of them. -/
  | leaf
  /-- The value itself, and of the values of its fields those that their schemas say. -/
  | record (fields : List (String × Schema))
  /-- Those that the schema says of every item. -/
  | list (item : Schema)
  /-- Those that the schema says of the value of every member, whatever its name. -/
  | map (value : Schema)

/-- Whether no value inside is a record. -/
def Schema.isLeaf : Schema → Bool
  | leaf => true
  | _ => false

/-- One change in one of the records inside a value: its members are brought in another order, or a
member whose name is no field of it comes in, with any value. Records may be written as arrays, with
the values of their fields at their places. -/
inductive Change : Schema → Json → Json → Prop where
  | permuted {fields : List (String × Schema)} {members members' : List (String × Json)}
      (hperm : members'.Perm members) : Change (.record fields) (.object members) (.object members')
  | inserted {fields : List (String × Schema)} {front behind : List (String × Json)} {name : String}
      {value : Json} (hname : name ∉ fields.map (·.1)) :
      Change (.record fields) (.object (front ++ behind)) (.object (front ++ (name, value) :: behind))
  | inField {fields : List (String × Schema)} {front behind : List (String × Json)} {name : String}
      {schema : Schema} {value value' : Json} (hfield : fields.lookup name = some schema)
      (hchange : Change schema value value') :
      Change (.record fields) (.object (front ++ (name, value) :: behind))
        (.object (front ++ (name, value') :: behind))
  | inPlace {fields : List (String × Schema)} {front behind : List Json} {name : String}
      {schema : Schema} {value value' : Json} (hplace : (fields.map (·.1)).idxOf name = front.length)
      (hfield : fields.lookup name = some schema) (hchange : Change schema value value') :
      Change (.record fields) (.array (front ++ value :: behind)) (.array (front ++ value' :: behind))
  | inItem {item : Schema} {front behind : List Json} {value value' : Json}
      (hchange : Change item value value') :
      Change (.list item) (.array (front ++ value :: behind)) (.array (front ++ value' :: behind))
  | inMember {schema : Schema} {front behind : List (String × Json)} {name : String}
      {value value' : Json} (hchange : Change schema value value') :
      Change (.map schema) (.object (front ++ (name, value) :: behind))
        (.object (front ++ (name, value') :: behind))

/-- What is read of a value is the same after a change. -/
def Respects {α : Type} (schema : Schema) (decode : Json → Option α) : Prop :=
  ∀ value value', Change schema value value' → decode value' = decode value

section

variable {α : Type} {decode : Json → Option α} {schema : Schema} {value value' json json' : Json}

/-- A change happens inside a value, so `null` neither changes nor comes of a change. -/
theorem Change.ne_null (hchange : Change schema value value') : value ≠ .null ∧ value' ≠ .null := by
  cases hchange <;> simp

/-- A list is read element by element, so a change in one element is respected when the reading of
elements respects it. -/
theorem respects_list (hdecode : Respects schema decode) : Respects (.list schema) (list? decode) := by
  intro value value' hchange
  cases hchange with
  | inItem hchange => simp [list?, List.mapM_append, hdecode _ _ hchange]

theorem respects_map (hdecode : Respects schema decode) : Respects (.map schema) (map? decode) := by
  intro value value' hchange
  cases hchange with
  | inMember hchange => simp [map?, List.mapM_append, hdecode _ _ hchange]

variable {fields : List (String × Schema)} {names : List String} {field : String}

/-- The entry of a field after a change: what it was, or a value in which something changed. -/
inductive Entry.Changed (fields : List (String × Schema)) (field : String) : Entry → Entry → Prop where
  | refl (entry : Entry) : Changed fields field entry entry
  | given {schema : Schema} {value value' : Json} (hfield : fields.lookup field = some schema)
      (hchange : Change schema value value') : Changed fields field (.given value) (.given value')

namespace Entry.Changed

variable {entry entry' : Entry} (hchanged : Changed fields field entry entry')

include hchanged

/-- A field that is read as a leaf has nothing in it that could change. -/
theorem eq_of_isLeaf (hleaf : (fields.lookup field).any Schema.isLeaf = true) : entry' = entry := by
  cases hchanged with
  | refl => rfl
  | given hfield hchange =>
    rw [hfield] at hleaf
    cases hchange <;> cases hleaf

/-- The default does not matter to a change: it is taken for the entry before and behind it, or for
neither. -/
theorem orDefault (hfield : fields.lookup field = some schema) (hdecode : Respects schema decode)
    (fallback : α) : entry'.orDefault decode fallback = entry.orDefault decode fallback := by
  cases hchanged with
  | refl => rfl
  | given hown hchange =>
    obtain rfl := Option.some.inj (hfield.symm.trans hown)
    exact hdecode _ _ hchange

/-- What is read of an optional field does not change either, since `null` is never what changes. -/
theorem optional (hfield : fields.lookup field = some schema) (hdecode : Respects schema decode) :
    entry'.optional decode = entry.optional decode := by
  cases hchanged with
  | refl => rfl
  | given hown hchange =>
    obtain rfl := Option.some.inj (hfield.symm.trans hown)
    obtain ⟨hne, hne'⟩ := hchange.ne_null
    simp [Entry.optional, hdecode _ _ hchange]

/-- Whether something is given that is not null stays the same. -/
theorem isSome_optional :
    (entry'.optional some).map Option.isSome = (entry.optional some).map Option.isSome := by
  cases hchanged with
  | refl => rfl
  | given _ hchange =>
    obtain ⟨hne, hne'⟩ := hchange.ne_null
    simp [Entry.optional]

end Entry.Changed

/-- The entries of some fields after a change. -/
def EntriesChanged (fields : List (String × Schema)) (names : List String)
    (entry entry' : String → Entry) : Prop :=
  ∀ field ∈ names, (entry field).Changed fields field (entry' field)

theorem EntriesChanged.leaf {entry entry' : String → Entry}
    (hchanged : EntriesChanged fields names entry entry') (field : String) (hmem : field ∈ names)
    (hleaf : (fields.lookup field).any Schema.isLeaf = true) : entry' field = entry field :=
  (hchanged field hmem).eq_of_isLeaf hleaf

/-- The entry of a field among the members of an object. -/
def entryIn (members : List (String × Json)) (field : String) : Entry :=
  match members.lookup field with
  | some value => .given value
  | none => .omitted

/-- The names of members that are among the fields of a record. -/
def known (names : List String) (members : List (String × Json)) : List String :=
  (members.map (·.1)).filter names.contains

/-- An object is read as a record unless a known member stands twice in it. -/
theorem record?_object (names : List String) (members : List (String × Json)) :
    (object members).record? names =
      if (known names members).Nodup then some (entryIn members) else none := by
  rw [record?]
  simp only [beq_iff_eq, Ordered.length_eraseDups_eq_iff]
  rfl

/-- Entries that are read after a change when they were before, and changed at most themselves. -/
theorem rel_record?_object {members members' : List (String × Json)}
    (hknown : (known names members').Perm (known names members))
    (hentries : (known names members).Nodup →
      EntriesChanged fields names (entryIn members) (entryIn members')) :
    Option.Rel (EntriesChanged fields names) ((object members).record? names)
      ((object members').record? names) := by
  simp only [record?_object, hknown.nodup_iff]
  split
  · exact .some (hentries ‹_›)
  · exact .none

/-- Members that are only moved keep their entries, as long as no known one stands twice. -/
theorem lookup_eq_of_perm {members members' : List (String × Json)}
    (hperm : members'.Perm members) (honce : (known names members).Nodup) (hfield : field ∈ names) :
    members'.lookup field = members.lookup field := by
  -- Names that are no fields may repeat, and then a look-up under them depends on the order.
  have honce' : (known names members').Nodup :=
    (((hperm.map _).filter _).nodup_iff).mpr honce
  have hvalues := (hperm.filter (·.1 == field)).map (·.2)
  rw [values_eq_lookup honce hfield, values_eq_lookup honce' hfield] at hvalues
  cases hlookup : members.lookup field with
  | none => simpa [hlookup] using hvalues
  | some value => simpa [hlookup, List.perm_singleton, Option.toList_eq_singleton_iff] using hvalues

/-- The entries of an object after a change, of which at least those among its fields are read. -/
theorem rel_record?_of_object {members : List (String × Json)} (hnames : names ⊆ fields.map (·.1))
    (hchange : Change (.record fields) (.object members) json') :
    Option.Rel (EntriesChanged fields names) ((object members).record? names)
      (json'.record? names) := by
  cases hchange with
  | permuted hperm =>
    apply rel_record?_object ((hperm.map _).filter _)
    intro honce field hfield
    rw [entryIn, entryIn, lookup_eq_of_perm hperm honce hfield]
    exact .refl _
  | @inserted _ front behind name value hname =>
    have hunknown : name ∉ names := fun hmem => hname (hnames hmem)
    apply rel_record?_object
    · simp [known, hunknown]
    · intro _ field hfield
      have hne : field ≠ name := fun heq => hunknown (heq ▸ hfield)
      rw [entryIn, entryIn, List.lookup_append, List.lookup_append, List.lookup_cons,
        beq_false_of_ne hne]
      exact .refl _
  | @inField _ front behind name schema value value' hown hchange =>
    apply rel_record?_object
    · simp [known]
    · intro _ field _
      rw [entryIn, entryIn, List.lookup_append, List.lookup_append, List.lookup_cons,
        List.lookup_cons]
      cases front.lookup field with
      | some value => exact .refl _
      | none =>
        by_cases hname : field = name
        · subst hname
          simpa using .given hown hchange
        · rw [beq_false_of_ne hname]
          exact .refl _

/-- A record may also be written as an array of its fields, whose changes are those of the fields in
place. -/
theorem rel_record?_of_array {items : List Json}
    (hchange : Change (.record fields) (.array items) json') :
    Option.Rel (EntriesChanged fields (fields.map (·.1)))
      ((array items).record? (fields.map (·.1))) (json'.record? (fields.map (·.1))) := by
  cases hchange with
  | @inPlace _ front behind name schema value value' hplace hown hchange =>
    rw [record?, record?]
    simp only [List.length_append, List.length_cons]
    split
    · apply Option.Rel.some
      intro field hfield
      dsimp only
      by_cases hname : field = name
      · subst hname
        simpa [hplace] using .given hown hchange
      · have hne : (fields.map (·.1)).idxOf field ≠ front.length := by
          rw [← hplace]
          exact fun heq => hname ((List.idxOf_inj hfield).mp heq)
        have hset : front ++ value' :: behind =
            (front ++ value :: behind).set front.length value' := by
          simp
        rw [hset, List.getElem?_set_ne hne.symm]
        exact .refl _
    · exact .none

variable {body : (String → Entry) → Option α}

/-- Decoding by way of a record respects a change when what is made of its entries does. -/
theorem eq_of_rel_record? (hread : ∀ json, decode json = json.record? names >>= body)
    (hbody : ∀ entry entry', EntriesChanged fields names entry entry' → body entry' = body entry)
    (hrel : Option.Rel (EntriesChanged fields names) (json.record? names) (json'.record? names)) :
    decode json' = decode json := by
  rw [hread, hread]
  generalize json.record? names = read at hrel
  generalize json'.record? names = read' at hrel
  cases hrel with
  | none => rfl
  | some hentries => exact hbody _ _ hentries

/-- A reader that reads the fields of a record and nothing else. -/
theorem respects_record (hnames : fields.map (·.1) = names)
    (hread : ∀ json, decode json = json.record? names >>= body)
    (hbody : ∀ entry entry', EntriesChanged fields names entry entry' → body entry' = body entry) :
    Respects (.record fields) decode := by
  subst hnames
  intro value value' hchange
  apply eq_of_rel_record? hread hbody
  cases value with
  | object members => exact rel_record?_of_object (List.Subset.refl _) hchange
  | array items => exact rel_record?_of_array hchange
  | _ => cases hchange

end

end PolicyForge.Json
