import PolicyForge.Proofs.Identifier.Arguments

namespace PolicyForge.Identifier

/-- A prefix that starts with a digit, or has no words, is given letters in front. -/
theorem startsWithLetter_moduleName (servicePrefix : String) :
    StartsWithLetter (moduleName servicePrefix) := by
  unfold moduleName
  dsimp only
  split
  · decide
  · rename_i hne
    split
    · exact StartsWithLetter.append (by decide) _
    · rename_i hdigit
      have hletter := startsWithLetter_snake hne hdigit
      split
      · exact hletter.append "_"
      · exact hletter

/-- Every module name can be written in the source. -/
theorem isName_moduleName (servicePrefix : String) : IsName (moduleName servicePrefix) :=
  ⟨startsWithLetter_moduleName servicePrefix, isSnake_moduleName servicePrefix,
    not_isKeyword_moduleName servicePrefix⟩

/-- The runs of letters and digits in a name, which are the words that its type is named after. -/
def runs (name : String) : List (List Char) :=
  (Text.pieces (!·.isAlphanum) name.toList).filter (!·.isEmpty)

theorem ne_nil_of_mem_runs {name : String} {run : List Char} (hrun : run ∈ runs name) : run ≠ [] := by
  simpa using (List.mem_filter.mp hrun).2

theorem isAlphanum_of_mem_runs {name : String} {run : List Char} (hrun : run ∈ runs name) {c : Char}
    (hc : c ∈ run) : c.isAlphanum = true := by
  simpa using Text.not_of_mem_pieces (List.mem_filter.mp hrun).1 hc

theorem flatten_map_capitalize (pieces : List (List Char)) :
    (pieces.map capitalize).flatten = ((pieces.filter (!·.isEmpty)).map capitalize).flatten := by
  induction pieces with
  | nil => rfl
  | cons piece pieces ih =>
    cases piece with
    | nil => simpa [capitalize] using ih
    | cons c piece => simp [ih]

/-- The name of a type is that of its runs, each capitalized, one after the other. -/
theorem toList_pascal (name : String) :
    (pascal name).toList = ((runs name).map capitalize).flatten := by
  rw [pascal, String.toList_ofList, pascalChars, flatten_map_capitalize, runs]

/-- Every run that is capitalized brings a capital or a digit into the name of the type. -/
theorem eq_nil_of_flatten_capitalize {name : String} {others : List (List Char)}
    (hothers : ∀ run ∈ others, run ∈ runs name)
    (hplain : ∀ c ∈ (others.map capitalize).flatten, (c.isUpper || c.isDigit) = false) :
    others = [] := by
  by_contra hne
  obtain ⟨run, more, rfl⟩ := List.exists_cons_of_ne_nil hne
  have hrun := hothers run List.mem_cons_self
  obtain ⟨c, rest, rfl⟩ := List.exists_cons_of_ne_nil (ne_nil_of_mem_runs hrun)
  have hclass := isUpper_or_isDigit_toUpper (isAlphanum_of_mem_runs hrun List.mem_cons_self)
  have hnone := hplain c.toUpper (by simp [capitalize])
  rw [Bool.or_eq_false_iff] at hnone
  simp [hnone] at hclass

/-- Two characters have the capital S. -/
theorem eq_of_toUpper_eq {c : Char} (hc : c.isAlphanum = true) (hupper : c.toUpper = 'S') :
    c = 's' ∨ c = 'S' :=
  of_isAlphanum (P := fun c => c.toUpper = 'S' → c = 's' ∨ c = 'S') (by decide +kernel) hc hupper

/-- A name comes to `Self` when it is this one word, capitalized or not. -/
theorem pascal_eq_Self_iff (name : String) :
    pascal name = "Self" ↔ runs name = ["self".toList] ∨ runs name = ["Self".toList] := by
  rw [← String.toList_inj, toList_pascal]
  constructor
  · intro hself
    cases hruns : runs name with
    | nil => simp [hruns] at hself
    | cons first others =>
      have hmem : ∀ run ∈ first :: others, run ∈ runs name := fun run hrun => hruns ▸ hrun
      obtain ⟨hfirst, hothers⟩ := List.forall_mem_cons.mp hmem
      obtain ⟨c, rest, rfl⟩ := List.exists_cons_of_ne_nil (ne_nil_of_mem_runs hfirst)
      have hchars :
          c.toUpper :: (rest ++ (others.map capitalize).flatten) = ['S', 'e', 'l', 'f'] := by
        simpa [hruns, capitalize] using hself
      obtain ⟨hupper, hbehind⟩ := List.cons.inj hchars
      have hnone : ['e', 'l', 'f'].all (fun d => !(d.isUpper || d.isDigit)) = true := by decide
      -- A second run would bring a capital or a digit behind the first character.
      obtain rfl : others = [] := by
        apply eq_nil_of_flatten_capitalize hothers
        intro d hd
        have hsmall : d ∈ ['e', 'l', 'f'] := hbehind ▸ List.mem_append_right rest hd
        simpa using List.all_eq_true.mp hnone d hsmall
      obtain rfl : rest = ['e', 'l', 'f'] := by simpa using hbehind
      obtain rfl | rfl := eq_of_toUpper_eq (isAlphanum_of_mem_runs hfirst List.mem_cons_self) hupper
      · exact .inl rfl
      · exact .inr rfl
  · rintro (hruns | hruns)
    · rw [hruns]
      rfl
    · rw [hruns]
      rfl

/-- What is put in front of a digit or of nothing never makes the name `Self`. -/
theorem typeName_eq_Self_iff (name : String) : typeName name = "Self" ↔ pascal name = "Self" := by
  have hservice : ¬ "Service".toList <+: "Self".toList := by decide
  constructor
  · intro hself
    unfold typeName at hself
    dsimp only at hself
    split at hself
    · exact absurd hself (by decide)
    · split at hself
      · exact absurd ⟨(pascal name).toList, by rw [← String.toList_append, hself]⟩ hservice
      · exact hself
  · intro hself
    rw [typeName, hself]
    rfl

/-- Whether a type has the name of a keyword is decided by its first character: only one keyword
starts with a capital. -/
theorem isKeyword_typeName_iff (name : String) :
    isKeyword (typeName name) = true ↔ typeName name = "Self" := by
  have hcapital : ∀ word ∈ keywords, word.toList.head?.any Char.isUpper = true → word = "Self" := by
    decide
  constructor
  · intro hkeyword
    obtain ⟨c, hhead, hupper⟩ := exists_head_typeName name
    exact hcapital _ (List.contains_iff_mem.mp hkeyword) (by rw [hhead]; exact hupper)
  · intro hself
    rw [hself]
    decide

/-- A name in the form of a type: a capital in front, then ASCII letters and digits. -/
structure IsTypeForm (ident : String) : Prop where
  capital : ident.toList.head?.any Char.isUpper = true
  letters : ∀ c ∈ ident.toList, c.isAlphanum = true

/-- Every name of a type has the form of one, whether or not it is a keyword. -/
theorem isTypeForm_typeName (name : String) : IsTypeForm (typeName name) := by
  obtain ⟨c, hhead, hupper⟩ := exists_head_typeName name
  refine ⟨by rw [hhead]; exact hupper, fun d hd => isAlphanum_of_mem_typeName hd⟩

/-- The module of every service has a name that can be used. The type of every service has the form
of one, and can be used unless the only word in the name of the service is `self` or `Self`, which
becomes a keyword. -/
theorem usable_unless_self (serviceName servicePrefix : String) :
    IsName (moduleName servicePrefix) ∧ IsTypeForm (typeName serviceName) ∧
      (isKeyword (typeName serviceName) = true ↔
        runs serviceName = ["self".toList] ∨ runs serviceName = ["Self".toList]) := by
  refine ⟨isName_moduleName servicePrefix, isTypeForm_typeName serviceName, ?_⟩
  rw [isKeyword_typeName_iff, typeName_eq_Self_iff, pascal_eq_Self_iff]

/-- No type can be declared for a service of this name. -/
theorem self_is_keyword : typeName "self" = "Self" ∧ isKeyword (typeName "self") = true := by
  decide +kernel

end PolicyForge.Identifier
