import Mathlib.Data.List.Chain
import PolicyForge.Proofs.Arn.Template
import PolicyForge.Proofs.Text.Cut

namespace PolicyForge.Arn

/-- The characters that open a placeholder. -/
def opening : List Char := ['$', '{']

/-- The name of a placeholder: one character or more, of those that may stand in it. -/
def IsName (name : List Char) : Prop :=
  name ≠ [] ∧ ∀ c ∈ name, isNameChar c = true

/-- A segment is proper: a text that is not empty and opens nothing, or a placeholder with a name.
-/
def Segment.Proper : Segment → Prop
  | .literal text => text ≠ "" ∧ ¬ opening <:+: text.toList
  | .placeholder name => IsName name.toList

/-- Whether a segment is text. -/
def Segment.isLiteral : Segment → Bool
  | .literal _ => true
  | .placeholder _ => false

/-- Segments that can be told from their text: each is proper, and no two pieces of text are
adjacent. -/
structure Canonical (segments : List Segment) : Prop where
  proper : ∀ segment ∈ segments, segment.Proper
  apart : segments.IsChain fun a b => a.isLiteral = true → b.isLiteral = false

/-- The text of segments. -/
def render (segments : List Segment) : String :=
  String.join (segments.map Segment.render)

/-- The text of a template is its segments' texts one after the other. -/
theorem toList_render (segments : List Segment) :
    (render segments).toList = segments.flatMap (·.render.toList) := by
  rw [render, String.toList_join, List.flatMap_map]

theorem canonical_nil : Canonical [] :=
  ⟨by simp, List.isChain_nil⟩

theorem canonical_cons_iff {segment : Segment} {segments : List Segment} :
    Canonical (segment :: segments) ↔ segment.Proper ∧
      (segment.isLiteral = true → ∀ next ∈ segments.head?, next.isLiteral = false) ∧
      Canonical segments := by
  constructor
  · rintro ⟨hproper, hapart⟩
    obtain ⟨hfirst, hrest⟩ := List.forall_mem_cons.mp hproper
    obtain ⟨hnext, hapart⟩ := List.isChain_cons.mp hapart
    exact ⟨hfirst, fun htext next hmem => hnext next hmem htext, hrest, hapart⟩
  · rintro ⟨hfirst, hnext, hrest, hapart⟩
    refine ⟨List.forall_mem_cons.mpr ⟨hfirst, hrest⟩, List.isChain_cons.mpr ⟨?_, hapart⟩⟩
    exact fun next hmem htext => hnext htext next hmem

/-- A placeholder's name cannot hold the brace that ends it, so the first closing brace after an
opening is the placeholder's own. -/
theorem closing_not_mem {name : List Char} (hname : IsName name) : '}' ∉ name := by
  intro hmem
  have hchar := hname.2 '}' hmem
  exact absurd hchar (by decide)

/-- A placeholder's name cannot hold a dollar sign, so no opening starts inside one. -/
theorem dollar_not_mem {name : List Char} (hname : IsName name) : '$' ∉ name := by
  intro hmem
  have hchar := hname.2 '$' hmem
  exact absurd hchar (by decide)

theorem head?_ne_of_forall {c d : Char} {rest : List Char}
    (hplain : ∀ tail, c = '$' → rest = d :: tail → False) : c = '$' → rest.head? ≠ some d := by
  intro hdollar hhead
  obtain ⟨tail, rfl⟩ := List.head?_eq_some_iff.mp hhead
  exact hplain tail hdollar rfl

/-- A character that does not start an opening joins the literal read so far, and the offset moves
on by its bytes. -/
theorem scan_cons {c : Char} {rest : List Char} (hplain : c = '$' → rest.head? ≠ some '{')
    (offset : Nat) (literal : List Char) :
    scan offset literal (c :: rest) = scan (offset + c.utf8Size) (c :: literal) rest := by
  rw [scan]
  rintro _ rfl rfl
  exact hplain rfl rfl

/-- Text that opens nothing is collected as it stands. -/
theorem scan_append {text rest : List Char} (htext : ¬ opening <:+: text)
    (hrest : rest.head? ≠ some '{') (offset : Nat) (literal : List Char) :
    scan offset literal (text ++ rest) =
      scan (offset + (String.ofList text).utf8ByteSize) (text.reverse ++ literal) rest := by
  induction text generalizing offset literal with
  | nil => simp
  | cons c text ih =>
    have hlater : ¬ opening <:+: text := fun hopens =>
      htext (hopens.trans (List.suffix_cons c text).isInfix)
    have hplain : c = '$' → (text ++ rest).head? ≠ some '{' := by
      rintro rfl hopens
      cases text with
      | nil => exact hrest hopens
      | cons d text =>
        obtain rfl : d = '{' := by simpa using hopens
        exact htext ⟨[], text, rfl⟩
    rw [List.cons_append, scan_cons hplain, ih hlater]
    simp [String.ofList_cons, Nat.add_assoc]

/-- A placeholder takes three bytes more than its name: the opening's two and the closing brace. -/
theorem utf8ByteSize_placeholder (name : List Char) :
    (String.ofList ('$' :: '{' :: (name ++ ['}']))).utf8ByteSize =
      (String.ofList name).utf8ByteSize + 3 := by
  have hdollar : '$'.utf8Size = 1 := by decide
  have hopen : '{'.utf8Size = 1 := by decide
  have hclose : '}'.utf8Size = 1 := by decide
  simp only [String.ofList_cons, String.ofList_append, String.ofList_nil, String.utf8ByteSize_append,
    String.utf8ByteSize_singleton, String.utf8ByteSize_empty, hdollar, hopen, hclose]
  omega

/-- An opening with no closing brace after it is reported as unterminated, at the opening's own
offset. -/
theorem scan_unclosed {rest : List Char} (hrest : '}' ∉ rest) (offset : Nat) (literal : List Char) :
    scan offset literal ('$' :: '{' :: rest) = .error (.unterminated offset) := by
  have hcut := Text.cutAt_eq_none hrest
  rw [scan]
  split
  · rfl
  · rename_i hsome
    cases hsome.symm.trans hcut

/-- An opening that is closed: the text up to the first closing brace decides between a placeholder
and the two other faults. -/
theorem scan_closed {name : List Char} (hname : '}' ∉ name) (rest : List Char) (offset : Nat)
    (literal : List Char) :
    scan offset literal ('$' :: '{' :: (name ++ '}' :: rest)) =
      if name.isEmpty then .error (.empty offset)
      else if name.all isNameChar then do
        let others ← scan (offset + (String.ofList name).utf8ByteSize + 3) [] rest
        return closeLiteral literal ++ .placeholder (String.ofList name) :: others
      else .error (.invalidName (String.ofList name)) := by
  have hcut := Text.cutAt_append hname rest
  rw [scan]
  split
  · rename_i hnone
    cases hnone.symm.trans hcut
  · rename_i own after hsome
    obtain ⟨rfl, rfl⟩ := Prod.mk.inj (Option.some.inj (hsome.symm.trans hcut))
    rfl

/-- A well-named placeholder ends the literal before it and starts an empty one behind the brace. -/
theorem scan_placeholder {name : List Char} (hname : IsName name) (rest : List Char) (offset : Nat)
    (literal : List Char) :
    scan offset literal ('$' :: '{' :: (name ++ '}' :: rest)) = (do
      let others ← scan (offset + (String.ofList name).utf8ByteSize + 3) [] rest
      return closeLiteral literal ++ .placeholder (String.ofList name) :: others) := by
  have hchars : name.all isNameChar = true := List.all_eq_true.mpr hname.2
  rw [scan_closed (closing_not_mem hname), if_neg (by simpa using hname.1), if_pos hchars]

/-- Behind a text, cutting canonical segments gives them back. They may start with text only where
no text stands in front of them. -/
theorem scan_render {segments : List Segment} (hcanonical : Canonical segments) {literal : List Char}
    (hliteral : literal ≠ [] → ∀ next ∈ segments.head?, next.isLiteral = false) (offset : Nat) :
    scan offset literal (segments.flatMap (·.render.toList)) =
      .ok (closeLiteral literal ++ segments) := by
  induction segments generalizing literal offset with
  | nil => simp [scan]
  | cons segment segments ih =>
    obtain ⟨hproper, hnext, hrest⟩ := canonical_cons_iff.mp hcanonical
    rw [List.flatMap_cons]
    cases segment with
    | literal text =>
      obtain rfl : literal = [] := by
        by_contra hne
        exact absurd (hliteral hne _ rfl) (by simp [Segment.isLiteral])
      have hapart := hnext rfl
      have hhead : (segments.flatMap (·.render.toList)).head? ≠ some '{' := by
        cases segments with
        | nil => simp
        | cons next segments =>
          cases next with
          | literal other => exact absurd (hapart _ rfl) (by simp [Segment.isLiteral])
          | placeholder name => simp [toList_render_placeholder]
      have hclose : closeLiteral (text.toList.reverse ++ []) = [.literal text] := by
        have hne : text.toList ≠ [] := fun h => hproper.1 (String.toList_eq_nil_iff.mp h)
        simp [closeLiteral, hne]
      rw [toList_render_literal, scan_append hproper.2 hhead, ih hrest fun _ => hapart, hclose]
      rfl
    | placeholder name =>
      rw [toList_render_placeholder, List.append_assoc, List.singleton_append, List.cons_append,
        List.cons_append, scan_placeholder hproper, ih hrest (by simp)]
      simp [closeLiteral, bind, Except.bind, pure, Except.pure]

/-- Closing the literal read so far keeps a list of segments canonical when that literal holds no
opening and no literal follows. -/
theorem canonical_closeLiteral_append {literal : List Char} {segments : List Segment}
    (hliteral : ¬ opening <:+: literal.reverse) (hsegments : Canonical segments)
    (hapart : ∀ next ∈ segments.head?, next.isLiteral = false) :
    Canonical (closeLiteral literal ++ segments) := by
  unfold closeLiteral
  split
  · exact hsegments
  · rename_i hne
    refine canonical_cons_iff.mpr ⟨⟨by simpa using hne, ?_⟩, fun _ => hapart, hsegments⟩
    rwa [String.toList_ofList]

theorem not_opening_infix_take (cs : List Char) : ¬ opening <:+: cs.take 1 := by
  intro hopens
  have hlength := hopens.length_le
  simp only [opening, List.length_cons, List.length_nil, List.length_take] at hlength
  omega

/-- A text that opens nothing may go on with a character that does not open anything behind it. -/
theorem not_opening_infix_concat {cs rest : List Char} {c : Char} (hcs : ¬ opening <:+: cs ++ [c])
    (hplain : c = '$' → rest.head? ≠ some '{') : ¬ opening <:+: cs ++ [c] ++ rest.take 1 := by
  cases rest with
  | nil => simpa using hcs
  | cons d rest =>
    rw [List.take_succ_cons, List.take_zero, List.infix_concat_iff]
    rintro (⟨before, hbefore⟩ | hinfix)
    · have hpair : before ++ ['$'] ++ ['{'] = cs ++ [c] ++ [d] := by simpa [opening] using hbefore
      obtain ⟨hfirst, hlast⟩ := List.append_inj' hpair rfl
      obtain ⟨_, hdollar⟩ := List.append_inj' hfirst rfl
      cases hdollar
      cases hlast
      exact hplain rfl rfl
    · exact hcs hinfix

/-- What is cut is canonical, whatever was collected in front, as long as that opens nothing. -/
theorem canonical_scan {offset : Nat} {literal cs : List Char} {segments : List Segment}
    (hliteral : ¬ opening <:+: literal.reverse ++ cs.take 1)
    (hscan : scan offset literal cs = .ok segments) : Canonical segments := by
  have hfront : ¬ opening <:+: literal.reverse :=
    fun hopens => hliteral (hopens.trans (List.prefix_append _ _).isInfix)
  induction offset, literal, cs using scan.induct generalizing segments with
  | case1 offset literal =>
    rw [scan] at hscan
    obtain rfl := Except.ok.inj hscan
    have hclosed := canonical_closeLiteral_append hfront canonical_nil (by simp)
    rwa [List.append_nil] at hclosed
  | case2 offset literal rest hnone =>
    obtain ⟨_, _, _, hcut, _⟩ := scan_open_ok hscan
    cases hnone.symm.trans hcut
  | case3 offset literal rest name after hsome hempty =>
    obtain ⟨_, _, _, hcut, hname, _⟩ := scan_open_ok hscan
    obtain ⟨rfl, rfl⟩ := Prod.mk.inj (Option.some.inj (hsome.symm.trans hcut))
    exact absurd (List.isEmpty_iff.mp hempty) hname
  | case4 offset literal rest name after hsome =>
    rename_i ih
    obtain ⟨_, _, others, hcut, hname, hchars, hothers, rfl⟩ := scan_open_ok hscan
    obtain ⟨rfl, rfl⟩ := Prod.mk.inj (Option.some.inj (hsome.symm.trans hcut))
    have hrest := ih (not_opening_infix_take after) hothers (by simp [opening])
    have hproper : IsName (String.ofList name).toList := by
      rw [String.toList_ofList]
      exact ⟨hname, List.all_eq_true.mp hchars⟩
    refine canonical_closeLiteral_append hfront
      (canonical_cons_iff.mpr ⟨hproper, by simp [Segment.isLiteral], hrest⟩) ?_
    rintro _ ⟨⟩
    rfl
  | case5 offset literal rest name after hsome _ hinvalid =>
    obtain ⟨_, _, _, hcut, _, hchars, _⟩ := scan_open_ok hscan
    obtain ⟨rfl, rfl⟩ := Prod.mk.inj (Option.some.inj (hsome.symm.trans hcut))
    exact absurd hchars hinvalid
  | case6 offset literal c rest hplain ih =>
    have hopens := head?_ne_of_forall hplain
    rw [scan_cons hopens] at hscan
    rw [List.take_succ_cons, List.take_zero] at hliteral
    refine ih ?_ hscan ?_
    · rw [List.reverse_cons]
      exact not_opening_infix_concat hliteral hopens
    · rwa [List.reverse_cons]

/-- What follows an opening that starts a proper placeholder: its name and the closing brace. -/
def Closes (after : List Char) : Prop :=
  ∃ name rest, after = name ++ '}' :: rest ∧ IsName name

/-- The first opening in a text that starts no proper placeholder, with what stands before and after
it. -/
structure FirstFault (cs before after : List Char) : Prop where
  opens : cs = before ++ '$' :: '{' :: after
  improper : ¬ Closes after
  first : ∀ earlier later, cs = earlier ++ '$' :: '{' :: later → earlier.length < before.length →
    Closes later

/-- What is reported of an opening at byte `offset` by what follows it: that no brace closes it,
that one does so at once, or else the text up to the brace. -/
inductive Reports (offset : Nat) : List Char → TemplateError → Prop where
  | unterminated {after : List Char} (hnone : '}' ∉ after) :
    Reports offset after (.unterminated offset)
  | empty (rest : List Char) : Reports offset ('}' :: rest) (.empty offset)
  | invalidName {name : List Char} (hname : '}' ∉ name) (hne : name ≠ []) (rest : List Char) :
    Reports offset (name ++ '}' :: rest) (.invalidName (String.ofList name))

/-- A text has one first fault: two decompositions at faults, each the leftmost, are the same. -/
theorem FirstFault.unique {cs before after before' after' : List Char}
    (hfault : FirstFault cs before after) (hfault' : FirstFault cs before' after') :
    before = before' ∧ after = after' := by
  have hlength : before.length = before'.length := by
    obtain hlt | heq | hgt := Nat.lt_trichotomy before.length before'.length
    · exact absurd (hfault'.first _ _ hfault.opens hlt) hfault.improper
    · exact heq
    · exact absurd (hfault.first _ _ hfault'.opens hgt) hfault'.improper
  obtain ⟨rfl, htail⟩ := List.append_inj (hfault.opens.symm.trans hfault'.opens) hlength
  simpa using htail

/-- The report on an opening as a function of what follows it. -/
private def report (offset : Nat) (after : List Char) : TemplateError :=
  match Text.cutAt '}' after with
  | none => .unterminated offset
  | some ([], _) => .empty offset
  | some (name, _) => .invalidName (String.ofList name)

private theorem Reports.eq_report {offset : Nat} {after : List Char} {error : TemplateError}
    (hreports : Reports offset after error) : error = report offset after := by
  cases hreports with
  | unterminated hnone => rw [report, Text.cutAt_eq_none hnone]
  | empty rest => rfl
  | @invalidName name hname hne rest =>
    obtain ⟨c, cs, rfl⟩ := List.exists_cons_of_ne_nil hne
    rw [report, Text.cutAt_append hname]

/-- No text is reported in two ways. -/
theorem Reports.unique {offset : Nat} {after : List Char} {error error' : TemplateError}
    (hreports : Reports offset after error) (hreports' : Reports offset after error') :
    error = error' :=
  hreports.eq_report.trans hreports'.eq_report.symm

/-- What stands behind an opening and is no placeholder makes the scan fail there, with the error
that describes it. -/
theorem exists_scan_eq_error {after : List Char} (himproper : ¬ Closes after) (offset : Nat)
    (literal : List Char) :
    ∃ error, scan offset literal ('$' :: '{' :: after) = .error error ∧
      Reports offset after error := by
  by_cases hclosed : '}' ∈ after
  · obtain ⟨name, rest, rfl, hname⟩ := List.eq_append_cons_of_mem hclosed
    rw [scan_closed hname]
    by_cases hne : name = []
    · subst hne
      exact ⟨_, rfl, .empty rest⟩
    · have hinvalid : ¬ name.all isNameChar = true := fun hchars =>
        himproper ⟨name, rest, rfl, hne, List.all_eq_true.mp hchars⟩
      rw [if_neg (by simpa using hne), if_neg hinvalid]
      exact ⟨_, rfl, .invalidName hname hne rest⟩
  · exact ⟨_, scan_unclosed hclosed offset literal, .unterminated hclosed⟩

/-- Every opening in a text starts a proper placeholder. -/
def AllClose (cs : List Char) : Prop :=
  ∀ before after, cs = before ++ '$' :: '{' :: after → Closes after

/-- An opening in a text that is not behind its first part starts a proper placeholder. -/
def Passes (skipped cs : List Char) : Prop :=
  ∀ before after, skipped ++ cs = before ++ '$' :: '{' :: after → Closes after ∨
    ∃ between, before = skipped ++ between ∧ cs = between ++ '$' :: '{' :: after

/-- Text the scan passes over adds no opening that fails to close. -/
theorem AllClose.append {skipped cs : List Char} (hpasses : Passes skipped cs) (hall : AllClose cs) :
    AllClose (skipped ++ cs) := by
  intro before after hopens
  obtain hcloses | ⟨between, _, hbehind⟩ := hpasses before after hopens
  · exact hcloses
  · exact hall between after hbehind

/-- Passing over some text moves the first fault along by that text. -/
theorem FirstFault.append {skipped cs before after : List Char} (hpasses : Passes skipped cs)
    (hfault : FirstFault cs before after) :
    FirstFault (skipped ++ cs) (skipped ++ before) after := by
  refine ⟨by rw [hfault.opens, List.append_assoc], hfault.improper, ?_⟩
  intro earlier later hopens hlt
  obtain hcloses | ⟨between, rfl, hbehind⟩ := hpasses earlier later hopens
  · exact hcloses
  · refine hfault.first between later hbehind ?_
    simpa using hlt

/-- Where there is no `$`, nothing opens. -/
theorem exists_behind_of_not_mem {skipped rest before after : List Char} (hskipped : '$' ∉ skipped)
    (hopens : skipped ++ rest = before ++ '$' :: after) :
    ∃ between, before = skipped ++ between ∧ rest = between ++ '$' :: after := by
  obtain ⟨between, hbefore, hrest⟩ | ⟨inside, hinside, htail⟩ := List.append_eq_append_iff.mp hopens
  · exact ⟨between, hbefore, hrest⟩
  · cases inside with
    | nil => exact ⟨[], by simpa using hinside.symm, by simpa using htail.symm⟩
    | cons c inside =>
      obtain rfl : c = '$' := (List.cons.inj htail).1.symm
      exact absurd (hinside ▸ List.mem_append_right before List.mem_cons_self) hskipped

theorem passes_char {c : Char} {cs : List Char} (hplain : c = '$' → cs.head? ≠ some '{') :
    Passes [c] cs := by
  intro before after hopens
  cases before with
  | nil =>
    obtain ⟨hdollar, rfl⟩ := List.cons.inj hopens
    exact absurd rfl (hplain hdollar)
  | cons d before =>
    obtain ⟨rfl, hrest⟩ := List.cons.inj hopens
    exact .inr ⟨before, rfl, hrest⟩

theorem passes_placeholder {name : List Char} (hname : IsName name) (cs : List Char) :
    Passes ('$' :: '{' :: (name ++ ['}'])) cs := by
  intro before after hopens
  cases before with
  | nil =>
    obtain ⟨_, hrest⟩ := List.cons.inj hopens
    obtain ⟨_, rfl⟩ := List.cons.inj hrest
    exact .inl ⟨name, cs, by simp, hname⟩
  | cons d before =>
    obtain ⟨rfl, hrest⟩ := List.cons.inj hopens
    have hskipped : '$' ∉ '{' :: (name ++ ['}']) := by
      simpa using dollar_not_mem hname
    obtain ⟨between, rfl, hbehind⟩ := exists_behind_of_not_mem hskipped hrest
    exact .inr ⟨between, rfl, hbehind⟩

/-- What the result of cutting a text, which starts at byte `offset`, says about its openings. -/
def Explains (offset : Nat) (cs : List Char) : Except TemplateError (List Segment) → Prop
  | .ok _ => AllClose cs
  | .error error => ∃ before after, FirstFault cs before after ∧
      Reports (offset + (String.ofList before).utf8ByteSize) after error

/-- Passing the first part of a text leaves what is reported of the rest of it. -/
theorem Explains.append {skipped cs : List Char} (hpasses : Passes skipped cs) {offset : Nat}
    {result : Except TemplateError (List Segment)}
    (hrest : Explains (offset + (String.ofList skipped).utf8ByteSize) cs result) :
    Explains offset (skipped ++ cs) result := by
  cases result with
  | ok segments => exact AllClose.append hpasses hrest
  | error error =>
    obtain ⟨before, after, hfault, hreports⟩ := hrest
    refine ⟨skipped ++ before, after, FirstFault.append hpasses hfault, ?_⟩
    rwa [String.ofList_append, String.utf8ByteSize_append, ← Nat.add_assoc]

/-- What is done to the segments of an explained scan does not change where it fails, nor why. -/
theorem Explains.map {offset : Nat} {cs : List Char} {result : Except TemplateError (List Segment)}
    (hresult : Explains offset cs result) (f : List Segment → List Segment) :
    Explains offset cs (result >>= fun segments => pure (f segments)) := by
  cases result with
  | ok segments => exact hresult
  | error error => exact hresult

/-- Whether an opening closes can be read off the cut at the first closing brace. -/
theorem closes_iff {after : List Char} :
    Closes after ↔ ∃ name rest, Text.cutAt '}' after = some (name, rest) ∧ IsName name := by
  constructor
  · rintro ⟨name, rest, rfl, hname⟩
    exact ⟨name, rest, Text.cutAt_append (closing_not_mem hname) rest, hname⟩
  · rintro ⟨name, rest, hcut, hname⟩
    exact ⟨name, rest, Text.cutAt_eq_some hcut, hname⟩

/-- An opening that does not close is the first fault of the text it starts. -/
theorem explains_of_not_closes {after : List Char} (himproper : ¬ Closes after) (offset : Nat)
    (literal : List Char) :
    Explains offset ('$' :: '{' :: after) (scan offset literal ('$' :: '{' :: after)) := by
  obtain ⟨error, hscan, hreports⟩ := exists_scan_eq_error himproper offset literal
  rw [hscan]
  exact ⟨[], after, ⟨rfl, himproper, by simp⟩, hreports⟩

/-- Cutting goes through when all openings start proper placeholders, and otherwise reports the
first that does not. -/
theorem explains_scan (offset : Nat) (literal cs : List Char) :
    Explains offset cs (scan offset literal cs) := by
  induction offset, literal, cs using scan.induct with
  | case1 offset literal =>
    rw [scan]
    intro before after hopens
    simp at hopens
  | case2 offset literal rest hnone =>
    refine explains_of_not_closes ?_ offset literal
    rw [closes_iff, hnone]
    simp
  | case3 offset literal rest name after hsome hempty =>
    refine explains_of_not_closes ?_ offset literal
    rw [closes_iff, hsome]
    rintro ⟨_, _, ⟨⟩, hname⟩
    exact hname.1 (List.isEmpty_iff.mp hempty)
  | case4 offset literal rest name after hsome =>
    rename_i hne hchars _ ih
    have hname : IsName name := ⟨by simpa using hne, List.all_eq_true.mp hchars⟩
    have hsize := utf8ByteSize_placeholder name
    rw [Nat.add_assoc, ← hsize] at ih
    have hbehind := Explains.append (passes_placeholder hname after) ih
    rw [Text.cutAt_eq_some hsome, scan_placeholder hname, Nat.add_assoc, ← hsize]
    rw [List.cons_append, List.cons_append, List.append_assoc, List.singleton_append] at hbehind
    exact hbehind.map _
  | case5 offset literal rest name after hsome hne hinvalid =>
    refine explains_of_not_closes ?_ offset literal
    rw [closes_iff, hsome]
    rintro ⟨_, _, ⟨⟩, hname⟩
    exact hinvalid (List.all_eq_true.mpr hname.2)
  | case6 offset literal c rest hplain ih =>
    have hopens := head?_ne_of_forall hplain
    rw [scan_cons hopens]
    refine Explains.append (passes_char hopens) ?_
    simpa [String.ofList_cons] using ih

namespace Template

/-- Parsing keeps the raw text and scans it from the start, so a parsed template is known by its two
fields. -/
theorem parse_eq_ok_iff_scan {raw : String} {template : Template} :
    parse raw = .ok template ↔ template.raw = raw ∧ scan 0 [] raw.toList = .ok template.segments := by
  obtain ⟨own, segments⟩ := template
  rw [parse]
  cases scan 0 [] raw.toList with
  | error error => simp [bind, Except.bind]
  | ok found => simp [bind, Except.bind, pure, Except.pure, eq_comm]

/-- Reading a template and rendering canonical segments are inverse to each other, so that just the
texts of canonical segments are templates. Rendering is what filling does when nothing is known. Any
other text is refused for the first opening in it that starts no proper placeholder. -/
theorem parse_inverse_render (raw : String) :
    (∀ template, parse raw = .ok template ↔
      template.raw = raw ∧ Canonical template.segments ∧ render template.segments = raw) ∧
    (∀ template : Template, template.fill (fun _ => none) = render template.segments) ∧
    ∀ error, parse raw = .error error ↔ ∃ before after, FirstFault raw.toList before after ∧
      Reports (String.ofList before).utf8ByteSize after error := by
  refine ⟨fun template => ?_, fun _ => rfl, fun error => ?_⟩
  · rw [parse_eq_ok_iff_scan]
    constructor
    · rintro ⟨hraw, hscan⟩
      refine ⟨hraw, canonical_scan (by simpa using not_opening_infix_take raw.toList) hscan, ?_⟩
      rw [← String.toList_inj, toList_render]
      exact flatMap_render_scan hscan
    · rintro ⟨hraw, hcanonical, hrender⟩
      refine ⟨hraw, ?_⟩
      rw [← hrender, toList_render]
      exact scan_render hcanonical (by simp) 0
  · have hexplains := explains_scan 0 [] raw.toList
    rw [parse]
    cases hscan : scan 0 [] raw.toList with
    | ok segments =>
      rw [hscan] at hexplains
      constructor
      · rintro ⟨⟩
      · rintro ⟨before, after, hfault, _⟩
        exact absurd (hexplains before after hfault.opens) hfault.improper
    | error found =>
      rw [hscan] at hexplains
      obtain ⟨before, after, hfault, hreports⟩ := hexplains
      rw [Nat.zero_add] at hreports
      constructor
      · rintro ⟨⟩
        exact ⟨before, after, hfault, hreports⟩
      · rintro ⟨_, _, hfault', hreports'⟩
        obtain ⟨rfl, rfl⟩ := hfault.unique hfault'
        rw [hreports.unique hreports']
        rfl

end Template

end PolicyForge.Arn
