import PolicyForge.Proofs.Condition.Placeholder

namespace PolicyForge.Condition

theorem KeyEnding.ofTail?_nil : ofTail? [] = some .openSuffix :=
  rfl

/-- One letter or digit in the tail is enough to make it a parameter. -/
theorem KeyEnding.ofTail?_of_letter {tail : List Char} {c : Char} (hc : c ∈ tail)
    (hletter : c.isAlphanum = true) :
    ofTail? tail = some (.parameter (String.ofList (tail.filter Char.isAlphanum))) := by
  have hletters : tail.filter Char.isAlphanum ≠ [] :=
    List.ne_nil_of_mem (List.mem_filter.mpr ⟨hc, hletter⟩)
  simp [ofTail?, List.ne_nil_of_mem hc, hletters]

/-- What a tail can be: nothing, or text whose letters and digits name the parameter. -/
theorem KeyEnding.ofTail?_eq_some {tail : List Char} {ending : KeyEnding}
    (hending : ofTail? tail = some ending) :
    (tail = [] ∧ ending = .openSuffix) ∨ ∃ c ∈ tail, c.isAlphanum = true ∧
      ending = .parameter (String.ofList (tail.filter Char.isAlphanum)) := by
  by_cases hempty : tail = []
  · subst hempty
    exact .inl ⟨rfl, (Option.some.inj hending).symm⟩
  · by_cases hletter : ∃ c ∈ tail, c.isAlphanum = true
    · obtain ⟨c, hc, hletter⟩ := hletter
      rw [ofTail?_of_letter hc hletter] at hending
      exact .inr ⟨c, hc, hletter, (Option.some.inj hending).symm⟩
    · have hnone : tail.filter Char.isAlphanum = [] :=
        List.filter_eq_nil_iff.mpr fun c hc hisLetter => hletter ⟨c, hc, hisLetter⟩
      simp [ofTail?, hempty, hnone] at hending

namespace KeyTemplate

/-- What may follow a slash that ends the name of a key: nothing, or the start of a placeholder. -/
def MayFollow (tail : List Char) : Prop :=
  tail = [] ∨ tail.head? = some '$' ∨ tail.head? = some '<'

theorem endsName_iff {tail : List Char} : endsName tail = true ↔ MayFollow tail := by
  cases tail with
  | nil => simp [endsName, MayFollow]
  | cons c tail => simp [endsName, MayFollow]

/-- The first slash of a text that ends a name, by what stands in front of it and behind it. -/
structure FirstEnd (rest name tail : List Char) : Prop where
  cut : rest = name ++ '/' :: tail
  ends : MayFollow tail
  first : ∀ name' tail', rest = name' ++ '/' :: tail' → MayFollow tail' → name.length ≤ name'.length

/-- A text has at most one first slash that ends a name. -/
theorem FirstEnd.unique {rest name tail name' tail' : List Char} (hend : FirstEnd rest name tail)
    (hend' : FirstEnd rest name' tail') : name = name' ∧ tail = tail' := by
  have hlength : name.length = name'.length :=
    Nat.le_antisymm (hend.first _ _ hend'.cut hend'.ends) (hend'.first _ _ hend.cut hend.ends)
  obtain ⟨rfl, htail⟩ := List.append_inj (hend.cut.symm.trans hend'.cut) hlength
  exact ⟨rfl, (List.cons.inj htail).2⟩

/-- Wherever a slash ends a name, the cut is made there or further in front. -/
theorem exists_cutName {tail : List Char} (hends : endsName tail = true) (name : List Char) :
    ∃ name' tail', cutName (name ++ '/' :: tail) = some (name', tail') ∧
      name'.length ≤ name.length := by
  induction name with
  | nil => exact ⟨[], tail, by simp [cutName, hends], Nat.le_refl 0⟩
  | cons c name ih =>
    obtain ⟨name', tail', hcut, hlength⟩ := ih
    rw [List.cons_append, cutName]
    split
    · exact ⟨[], _, rfl, Nat.zero_le _⟩
    · exact ⟨c :: name', tail', by rw [hcut]; rfl, Nat.succ_le_succ hlength⟩

/-- The cut finds the first slash that ends a name. -/
theorem cutName_eq_some_iff {rest name tail : List Char} :
    cutName rest = some (name, tail) ↔ FirstEnd rest name tail := by
  have hsound : ∀ {name tail}, cutName rest = some (name, tail) → FirstEnd rest name tail := by
    intro name tail hcut
    obtain ⟨hrest, hends⟩ := cutName_eq_some hcut
    refine ⟨hrest, endsName_iff.mp hends, ?_⟩
    intro name' tail' hrest' hends'
    obtain ⟨_, _, hfound, hlength⟩ := exists_cutName (endsName_iff.mpr hends') name'
    rw [← hrest', hcut] at hfound
    obtain ⟨rfl, rfl⟩ := Prod.mk.inj (Option.some.inj hfound)
    exact hlength
  refine ⟨hsound, fun hend => ?_⟩
  obtain ⟨_, _, hfound, _⟩ := exists_cutName (endsName_iff.mpr hend.ends) name
  rw [← hend.cut] at hfound
  obtain ⟨rfl, rfl⟩ := hend.unique (hsound hfound)
  exact hfound

theorem cutName_eq_none_iff {rest : List Char} :
    cutName rest = none ↔ ∀ name tail, ¬ FirstEnd rest name tail := by
  simp only [Option.eq_none_iff_forall_ne_some, Prod.forall, ne_eq, cutName_eq_some_iff]

/-- The grammar of keys. A prefix stands in front of the first colon, and something behind it. Where
a slash ends a name there, the name is not empty, and what follows the slash is nothing or has a
letter or digit. -/
def IsKey (raw : String) : Prop :=
  ∃ servicePrefix rest : String, raw = servicePrefix ++ ":" ++ rest ∧
    ':' ∉ servicePrefix.toList ∧ servicePrefix ≠ "" ∧ rest ≠ "" ∧
    ∀ name tail, FirstEnd rest.toList name tail →
      name ≠ [] ∧ (tail = [] ∨ ∃ c ∈ tail, c.isAlphanum = true)

theorem ReadAs.ne_nil {rest name : List Char} {ending : KeyEnding} (hread : ReadAs rest name ending)
    (hname : name ≠ []) : rest ≠ [] := by
  obtain ⟨written, _, rfl⟩ := hread.exists_written
  exact List.append_ne_nil_of_left_ne_nil hname written

/-- The parts a text is read as are those of the key it is parsed to. -/
theorem parse?_of_readAs {raw : String} {servicePrefix rest name : List Char} {ending : KeyEnding}
    (hcut : Text.cutAt ':' raw.toList = some (servicePrefix, rest)) (hfront : servicePrefix ≠ [])
    (hread : ReadAs rest name ending) (hname : name ≠ []) :
    parse? raw = some ⟨raw, String.ofList servicePrefix, String.ofList name, ending⟩ := by
  have hrest := hread.ne_nil hname
  have hpresent : (guard (!servicePrefix.isEmpty && !rest.isEmpty) : Option Unit) = some () :=
    if_pos (by simp [hfront, hrest])
  have hnamed : (guard (!name.isEmpty) : Option Unit) = some () := if_pos (by simp [hname])
  refine Option.bind_eq_some_iff.mpr ⟨_, hcut, Option.bind_eq_some_iff.mpr ⟨(), hpresent, ?_⟩⟩
  cases hread with
  | plain hplain =>
    rw [hplain]
    exact Option.bind_eq_some_iff.mpr
      ⟨_, rfl, Option.bind_eq_some_iff.mpr ⟨(), hnamed, rfl⟩⟩
  | ended hended hending =>
    rw [hended]
    refine Option.bind_eq_some_iff.mpr
      ⟨(name, ending), ?_, Option.bind_eq_some_iff.mpr ⟨(), hnamed, rfl⟩⟩
    exact Option.map_eq_some_iff.mpr ⟨ending, hending, rfl⟩

/-- Every text of the grammar is parsed. -/
theorem exists_parse?_of_isKey {raw : String} (hraw : IsKey raw) :
    ∃ key, parse? raw = some key := by
  obtain ⟨servicePrefix, rest, rfl, hcolon, hfront, hrest, hends⟩ := hraw
  have hcut : Text.cutAt ':' (servicePrefix ++ ":" ++ rest).toList =
      some (servicePrefix.toList, rest.toList) := by
    rw [String.toList_append, String.toList_append, List.append_assoc]
    exact Text.cutAt_append hcolon rest.toList
  have hfront : servicePrefix.toList ≠ [] := by simpa using hfront
  cases hname : cutName rest.toList with
  | none => exact ⟨_, parse?_of_readAs hcut hfront (.plain hname) (by simpa using hrest)⟩
  | some cut =>
    obtain ⟨name, tail⟩ := cut
    obtain ⟨hne, rfl | ⟨c, hc, hletter⟩⟩ := hends name tail (cutName_eq_some_iff.mp hname)
    · exact ⟨_, parse?_of_readAs hcut hfront (.ended hname KeyEnding.ofTail?_nil) hne⟩
    · exact ⟨_, parse?_of_readAs hcut hfront
        (.ended hname (KeyEnding.ofTail?_of_letter hc hletter)) hne⟩

/-- A parsed text is one of the grammar. -/
theorem isKey_of_parse? {raw : String} {key : KeyTemplate} (hparse : parse? raw = some key) :
    IsKey raw := by
  obtain ⟨rest, hcut, hread, -, hfront, hname⟩ := exists_readAs hparse
  have hname : key.name.toList ≠ [] := by simpa using hname
  refine ⟨key.servicePrefix, String.ofList rest, ?_, Text.not_mem_of_cutAt hcut, hfront,
    by simpa using hread.ne_nil hname, ?_⟩
  · rw [← String.toList_inj, Text.cutAt_eq_some hcut]
    simp
  · intro name tail hend
    rw [String.toList_ofList, ← cutName_eq_some_iff] at hend
    generalize key.ending = ending at hread
    cases hread with
    | plain hplain => cases hplain.symm.trans hend
    | ended hended hending =>
      obtain ⟨rfl, rfl⟩ := Prod.mk.inj (Option.some.inj (hended.symm.trans hend))
      obtain ⟨hempty, _⟩ | ⟨c, hc, hletter, _⟩ := KeyEnding.ofTail?_eq_some hending
      · exact ⟨hname, .inl hempty⟩
      · exact ⟨hname, .inr ⟨c, hc, hletter⟩⟩

/-- Where a slash ends the name, the name stands in front of it, and what is behind it says whether
the key has a parameter and which. -/
theorem parts_of_firstEnd {rest name tail : List Char} {key : KeyTemplate}
    (hread : ReadAs rest key.name.toList key.ending) (hend : FirstEnd rest name tail) :
    key.name.toList = name ∧ (key.isOpenSuffix = true ↔ tail = []) ∧
      key.parameter? =
        if tail = [] then none else some (String.ofList (tail.filter Char.isAlphanum)) := by
  rw [← cutName_eq_some_iff] at hend
  generalize hending : key.ending = ending at hread
  cases hread with
  | plain hplain => cases hplain.symm.trans hend
  | ended hended hread =>
    obtain ⟨rfl, rfl⟩ := Prod.mk.inj (Option.some.inj (hended.symm.trans hend))
    obtain ⟨rfl, rfl⟩ | ⟨c, hc, _, rfl⟩ := KeyEnding.ofTail?_eq_some hread
    · simp [isOpenSuffix, parameter?, hending]
    · simp [isOpenSuffix, parameter?, hending, List.ne_nil_of_mem hc]

/-- With no slash that ends a name, all of the text is the name and the key has no parameter. -/
theorem parts_of_not_firstEnd {rest : List Char} {key : KeyTemplate}
    (hread : ReadAs rest key.name.toList key.ending)
    (hnone : ∀ name tail, ¬ FirstEnd rest name tail) :
    key.name.toList = rest ∧ key.isOpenSuffix = false ∧ key.parameter? = none := by
  rw [← cutName_eq_none_iff] at hnone
  generalize hending : key.ending = ending at hread
  cases hread with
  | plain => exact ⟨rfl, by simp [isOpenSuffix, hending], by simp [parameter?, hending]⟩
  | ended hended => cases hnone.symm.trans hended

/-- What stands behind the text in front of the parameter is nothing just when there is no
parameter. -/
theorem exists_literalPrefix_append {raw : String} {key : KeyTemplate}
    (hparse : parse? raw = some key) :
    ∃ tail : String, raw = key.literalPrefix ++ tail ∧ (tail = "" ↔ key.parameter? = none) := by
  cases hparameter : key.parameter? with
  | none =>
    have hfilled := filled_eq_literalPrefix hparse ""
    rw [filled_eq_raw hparse hparameter, hparameter] at hfilled
    exact ⟨"", hfilled, by simp⟩
  | some name =>
    obtain ⟨tail, hraw, hhead, _⟩ := exists_tail hparse hparameter
    refine ⟨tail, hraw, ?_⟩
    have hne : tail ≠ "" := by
      rintro rfl
      simp at hhead
    simp [hne]

theorem colon_mem_literalPrefix {raw : String} {key : KeyTemplate} (hparse : parse? raw = some key) :
    ':' ∈ key.literalPrefix.toList := by
  have hcolon := colon_mem_filled key ""
  rw [filled_eq_literalPrefix hparse] at hcolon
  simpa using hcolon

/-- A text is read as a key just when it has the form of one. A key has the text in front of the
first colon as its prefix, and what stands behind the colon up to the first slash that ends a name
as its name. The slash is part of the key: what follows it is nothing, or its letters and digits are
the parameter. The text in front of the parameter has a colon, and it is all of a key without one.
-/
theorem grammar_exact (raw : String) :
    ((parse? raw).isSome = true ↔ IsKey raw) ∧
    ∀ key, parse? raw = some key →
      key.raw = raw ∧
      (∃ rest : String, raw = key.servicePrefix ++ ":" ++ rest ∧ ':' ∉ key.servicePrefix.toList ∧
        (∀ name tail : String, FirstEnd rest.toList name.toList tail.toList →
          key.name = name ∧ raw = key.servicePrefix ++ ":" ++ key.name ++ "/" ++ tail ∧
          (key.isOpenSuffix = true ↔ tail = "") ∧
          key.parameter? =
            if tail = "" then none
            else some (String.ofList (tail.toList.filter Char.isAlphanum))) ∧
        ((∀ name tail, ¬ FirstEnd rest.toList name tail) →
          key.name = rest ∧ key.isOpenSuffix = false ∧ key.parameter? = none)) ∧
      key.literalPrefix.toList <+: raw.toList ∧ ':' ∈ key.literalPrefix.toList ∧
      (key.literalPrefix = raw ↔ key.parameter? = none) := by
  refine ⟨?_, fun key hparse => ?_⟩
  · rw [Option.isSome_iff_exists]
    exact ⟨fun ⟨_, hparse⟩ => isKey_of_parse? hparse, exists_parse?_of_isKey⟩
  · have hcolon := colon_mem_literalPrefix hparse
    obtain ⟨behind, hbehind, hempty⟩ := exists_literalPrefix_append hparse
    have hprefix : key.literalPrefix.toList <+: raw.toList :=
      ⟨behind.toList, by rw [← String.toList_append, ← hbehind]⟩
    have hwhole : key.literalPrefix = raw ↔ key.parameter? = none := by
      rw [← hempty, hbehind, ← String.toList_inj, String.toList_append]
      simp
    obtain ⟨rest, hcut, hread, hraw, -⟩ := exists_readAs hparse
    have hsplit : raw = key.servicePrefix ++ ":" ++ String.ofList rest := by
      rw [← String.toList_inj, Text.cutAt_eq_some hcut]
      simp
    refine ⟨hraw, ⟨String.ofList rest, hsplit, Text.not_mem_of_cutAt hcut, ?_, ?_⟩, hprefix, hcolon,
      hwhole⟩
    · intro name tail hend
      have hcutRest := hend.cut
      rw [String.toList_ofList] at hend hcutRest
      obtain ⟨hname, hopen, hparameter⟩ := parts_of_firstEnd hread hend
      refine ⟨String.toList_injective hname, ?_, by simpa using hopen, by simpa using hparameter⟩
      rw [← String.toList_inj, hsplit, hcutRest, ← hname]
      simp
    · intro hnone
      rw [String.toList_ofList] at hnone
      obtain ⟨hname, hopen, hparameter⟩ := parts_of_not_firstEnd hread hnone
      exact ⟨by rw [← hname, String.ofList_toList], hopen, hparameter⟩

/-- A slash that nothing fitting follows is part of the name, and so is a second colon. -/
example : (parse? "aws:a/b:c/$\x7bTag-1\x7d").map (fun key =>
    (key.servicePrefix, key.name, key.parameter?, key.literalPrefix)) =
      some ("aws", "a/b:c", some "Tag1", "aws:a/b:c/") := by
  decide +kernel

end KeyTemplate

end PolicyForge.Condition
