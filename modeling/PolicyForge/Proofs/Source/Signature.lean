import PolicyForge.Proofs.Identifier.Arguments
import PolicyForge.Proofs.Text.Blank
import PolicyForge.Source.Methods

namespace PolicyForge.Source

open Identifier (IsName)
open Text (isBlank pieces strip)

/-- The items of a list that is written with commas, without the blanks around them. The list may
end in a comma. -/
def listedItems (cs : List Char) : List (List Char) :=
  ((pieces (· == ',') cs).map (strip isBlank)).filter (!·.isEmpty)

/-- An argument as signatures list it: it does not end the list or the item it is in. -/
structure Listable (argument : String) : Prop where
  nonempty : argument ≠ ""
  stripped : Text.Stripped isBlank argument.toList
  comma : ',' ∉ argument.toList
  closing : ')' ∉ argument.toList

theorem strip_cons_of_pos {p : Char → Bool} {c : Char} (hc : p c = true) (cs : List Char) :
    strip p (c :: cs) = strip p cs := by
  rw [strip, List.dropWhile_cons_of_pos hc, strip]

/-- A space in front of an item is no part of it. -/
theorem listedItems_space (cs : List Char) : listedItems (' ' :: cs) = listedItems cs := by
  obtain ⟨piece, others, hpieces⟩ := List.exists_cons_of_ne_nil (Text.pieces_ne_nil (· == ',') cs)
  have hcons : pieces (· == ',') (' ' :: cs) = (' ' :: piece) :: others := by
    unfold pieces at hpieces ⊢
    rw [List.foldr_cons, hpieces, if_neg (by decide)]
  have hblank : isBlank ' ' = true := by decide
  rw [listedItems, listedItems, hcons, hpieces, List.map_cons, List.map_cons,
    strip_cons_of_pos hblank]

theorem listedItems_indentLine (line : String) (rest : List Char) :
    listedItems ((indentLine line).toList ++ rest) = listedItems (line.toList ++ rest) := by
  have hindentation : indentation.toList = [' ', ' ', ' ', ' '] := rfl
  rw [indentLine]
  split
  · rfl
  · rw [String.toList_append, hindentation]
    simp only [List.cons_append, List.nil_append, listedItems_space]

theorem listedItems_of_listable {argument : String} (hargument : Listable argument) :
    listedItems argument.toList = [argument.toList] := by
  have hpieces : pieces (· == ',') argument.toList = [argument.toList] := by
    rw [Text.pieces_eq_singleton_iff]
    intro c hc
    rw [beq_eq_false_iff_ne]
    rintro rfl
    exact hargument.comma hc
  rw [listedItems, hpieces, List.map_singleton, hargument.stripped.strip_eq]
  simp [hargument.nonempty]

theorem listedItems_append {argument : String} (hargument : Listable argument) (rest : List Char) :
    listedItems (argument.toList ++ ',' :: rest) = argument.toList :: listedItems rest := by
  have hone := listedItems_of_listable hargument
  rw [listedItems] at hone
  rw [listedItems, Text.pieces_append_cut (p := (· == ',')) rfl, List.map_append, List.filter_append,
    hone]
  rfl

theorem listedItems_intercalate {arguments : List String} (harguments : ∀ a ∈ arguments, Listable a) :
    listedItems (String.intercalate ", " arguments).toList = arguments.map String.toList := by
  induction arguments with
  | nil => rfl
  | cons argument arguments ih =>
    obtain ⟨hfirst, hrest⟩ := List.forall_mem_cons.mp harguments
    cases arguments with
    | nil => rw [String.intercalate_singleton, listedItems_of_listable hfirst]; rfl
    | cons next arguments =>
      have hcomma : (", " : String).toList = [',', ' '] := rfl
      rw [String.intercalate_cons_cons, String.toList_append, String.toList_append, hcomma,
        List.append_assoc, List.cons_append, List.cons_append, List.nil_append,
        listedItems_append hfirst, listedItems_space, ih hrest]
      rfl

/-- Arguments on lines of their own are listed in order, and the last comma adds none. -/
theorem listedItems_lines {arguments : List String} (harguments : ∀ a ∈ arguments, Listable a) :
    listedItems ((indent (arguments.map (· ++ ","))).flatMap String.toList) =
      arguments.map String.toList := by
  induction arguments with
  | nil => rfl
  | cons argument arguments ih =>
    obtain ⟨hfirst, hrest⟩ := List.forall_mem_cons.mp harguments
    have hcomma : ("," : String).toList = [','] := rfl
    have hrest := ih hrest
    rw [indent, List.map_map] at hrest ⊢
    rw [List.map_cons, List.flatMap_cons, Function.comp_apply, listedItems_indentLine,
      String.toList_append, hcomma, List.append_assoc, List.cons_append, List.nil_append,
      listedItems_append hfirst, hrest, List.map_cons]

/-- The name of an argument, which stands in front of its type. -/
def declaredName (argument : List Char) : String :=
  String.ofList (argument.takeWhile (· != ':'))

/-- The names that a signature declares: those of the arguments in its brackets. -/
def declaredNames (lines : List String) : List String :=
  let behind := ((lines.flatMap String.toList).dropWhile (· != '(')).drop 1
  (listedItems (behind.takeWhile (· != ')'))).map declaredName

/-- The names are read between the first bracket and the one that closes it. -/
theorem declaredNames_of_brackets {lines : List String} {front inside behind : List Char}
    (hlines : lines.flatMap String.toList = front ++ '(' :: (inside ++ ')' :: behind))
    (hfront : '(' ∉ front) (hinside : ')' ∉ inside) :
    declaredNames lines = (listedItems inside).map declaredName := by
  have hopened : ((lines.flatMap String.toList).dropWhile (· != '(')).drop 1 =
      inside ++ ')' :: behind := by
    rw [hlines, List.dropWhile_append_of_pos (Text.forall_bne_of_not_mem hfront),
      List.dropWhile_cons_of_neg (by simp), List.drop_succ_cons, List.drop_zero]
  have hclosed : (inside ++ ')' :: behind).takeWhile (· != ')') = inside := by
    rw [List.takeWhile_append_of_pos (Text.forall_bne_of_not_mem hinside),
      List.takeWhile_cons_of_neg (by simp), List.append_nil]
  rw [declaredNames, hopened, hclosed]

theorem closing_not_mem_intercalate {arguments : List String}
    (harguments : ∀ a ∈ arguments, Listable a) :
    ')' ∉ (String.intercalate ", " arguments).toList := by
  induction arguments with
  | nil => decide
  | cons argument arguments ih =>
    obtain ⟨hfirst, hrest⟩ := List.forall_mem_cons.mp harguments
    cases arguments with
    | nil => simpa using hfirst.closing
    | cons next arguments =>
      rw [String.intercalate_cons_cons]
      simpa [hfirst.closing] using ih hrest

theorem closing_not_mem_lines {arguments : List String}
    (harguments : ∀ a ∈ arguments, Listable a) :
    ')' ∉ (indent (arguments.map (· ++ ","))).flatMap String.toList := by
  intro hmem
  obtain ⟨line, hline, hmem⟩ := List.mem_flatMap.mp hmem
  rw [indent, List.map_map] at hline
  obtain ⟨argument, hargument, rfl⟩ := List.mem_map.mp hline
  have hclosing := (harguments argument hargument).closing
  simp [indentLine, indentation, hclosing] at hmem

/-- Whichever way a signature is laid out, it declares its arguments one after the other. -/
theorem declaredNames_signature {method : String} (hmethod : '(' ∉ method.toList)
    {arguments : List String} (harguments : ∀ a ∈ arguments, Listable a) :
    declaredNames (signature method arguments) =
      arguments.map fun argument => declaredName argument.toList := by
  have hfront : '(' ∉ ("pub fn " ++ method).toList := by
    simp [hmethod]
  have hbrackets : ∃ inside, (signature method arguments).flatMap String.toList =
      ("pub fn " ++ method).toList ++ '(' :: (inside ++ ')' :: " -> Self \x7b".toList) ∧
        ')' ∉ inside ∧ listedItems inside = arguments.map String.toList := by
    unfold signature
    dsimp only
    split
    · exact ⟨_, by simp, closing_not_mem_intercalate harguments, listedItems_intercalate harguments⟩
    · exact ⟨_, by simp [enclose], closing_not_mem_lines harguments, listedItems_lines harguments⟩
  obtain ⟨inside, hlines, hinside, hitems⟩ := hbrackets
  rw [declaredNames_of_brackets hlines hfront hinside, hitems, List.map_map]
  rfl

theorem declaredName_typed {ident : String} (hident : ':' ∉ ident.toList) (type : String) :
    declaredName (ident ++ ": " ++ type).toList = ident := by
  have hchars : (ident ++ ": " ++ type).toList = ident.toList ++ ':' :: (' ' :: type.toList) := by
    simp
  rw [declaredName, hchars, List.takeWhile_append_of_pos (Text.forall_bne_of_not_mem hident),
    List.takeWhile_cons_of_neg (by simp), List.append_nil, String.ofList_toList]

theorem not_isBlank_of_isLower {c : Char} (hc : c.isLower = true) : isBlank c = false := by
  have halphanum : c.isAlphanum = true := by
    change (c.isUpper || c.isLower || c.isDigit) = true
    rw [hc, Bool.or_true, Bool.true_or]
  exact Identifier.of_isAlphanum (P := fun c => c.isLower = true → isBlank c = false)
    (by decide +kernel) halphanum hc

theorem not_mem_of_isName {name : String} (hname : IsName name) {c : Char}
    (hc : Identifier.isSnakeChar c = false) : c ∉ name.toList := by
  intro hmem
  cases hc.symm.trans (Identifier.isSnake_iff.mp hname.snake c hmem)

theorem listable_typed {name type : String} (hname : IsName name) (htype : Listable type) :
    Listable (name ++ ": " ++ type) := by
  have hne : type.toList ≠ [] := by simpa using htype.nonempty
  have hcomma : ',' ∉ name.toList := not_mem_of_isName hname (by decide)
  have hclosing : ')' ∉ name.toList := not_mem_of_isName hname (by decide)
  refine ⟨by simp [htype.nonempty], ⟨?_, ?_⟩, ?_, ?_⟩
  · intro c hc
    have hletter := (hname.letter.append ": ").append type
    rw [Identifier.StartsWithLetter, Option.mem_def.mp hc] at hletter
    exact not_isBlank_of_isLower hletter
  · intro c hc
    rw [String.toList_append, List.getLast?_append_of_ne_nil _ hne] at hc
    exact htype.stripped.last c hc
  · simp [hcomma, htype.comma]
  · simp [hclosing, htype.closing]

end PolicyForge.Source
