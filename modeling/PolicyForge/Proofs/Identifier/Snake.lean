import PolicyForge.Proofs.Identifier.Items
import PolicyForge.Proofs.Text.Case

namespace PolicyForge.Identifier

theorem isAlphanum_toLower {c : Char} (hc : c.isAlphanum = true) : c.toLower.isAlphanum = true :=
  of_isAlphanum (P := fun c => c.isAlphanum = true → c.toLower.isAlphanum = true)
    (by decide +kernel) hc hc

/-- In lower case, no letter or digit is the underscore that parts words. -/
theorem toLower_ne_underscore {c : Char} (hc : c.isAlphanum = true) : c.toLower ≠ '_' := by
  intro heq
  have hkept := isAlphanum_toLower hc
  rw [heq] at hkept
  exact absurd hkept (by decide)

theorem toUpper_eq_and_toLower_eq_of_isDigit {c : Char} (hc : c.isDigit = true) :
    c.toUpper = c ∧ c.toLower = c := by
  have halphanum : c.isAlphanum = true := by rw [Char.isAlphanum, hc, Bool.or_true]
  exact of_isAlphanum (P := fun c => c.isDigit = true → c.toUpper = c ∧ c.toLower = c)
    (by decide +kernel) halphanum hc

theorem map_toLower_capitalize (cs : List Char) :
    (capitalize cs).map Char.toLower = cs.map Char.toLower := by
  cases cs with
  | nil => rfl
  | cons c rest => rw [capitalize, List.map_cons, List.map_cons, Text.toLower_toUpper]

/-- Running words together keeps all letters and digits, up to their case. -/
theorem map_toLower_pascalChars (name : List Char) :
    (pascalChars name).map Char.toLower = (name.filter Char.isAlphanum).map Char.toLower := by
  have hkept : (Text.pieces (!·.isAlphanum) name).flatten = name.filter Char.isAlphanum := by
    simp [Text.flatten_pieces]
  rw [pascalChars, List.map_flatten, List.map_map, ← hkept, List.map_flatten]
  congr 2
  exact funext map_toLower_capitalize

/-- A name made of capitalized words does not start with a small letter. -/
theorem not_isLower_of_head_pascalChars {name : List Char} {c : Char}
    (hc : (pascalChars name).head? = some c) : ¬ c.isLower = true :=
  of_isAlphanum (P := fun c => c.isUpper = true ∨ c.isDigit = true → ¬ c.isLower = true)
    (by decide +kernel) (isAlphanum_of_mem_pascalChars (List.mem_of_head? hc)) (head_pascalChars hc)

/-- Words that are run together already stay as they are. -/
theorem pascalChars_pascalChars (name : List Char) :
    pascalChars (pascalChars name) = pascalChars name := by
  have huncut : ∀ c ∈ pascalChars name, (!c.isAlphanum) = false := by
    intro c hc
    rw [isAlphanum_of_mem_pascalChars hc, Bool.not_true]
  rw [pascalChars, Text.pieces_eq_singleton_iff.mpr huncut, List.map_singleton,
    List.flatten_singleton]
  cases hchars : pascalChars name with
  | nil => rfl
  | cons c rest =>
    have hhead : (pascalChars name).head? = some c := by rw [hchars, List.head?_cons]
    rw [capitalize, Text.toUpper_of_not_isLower (not_isLower_of_head_pascalChars hhead)]

/-- Whether a word starts with the first of the characters behind `a`. -/
def startsBehind (a : Char) : List Char → Bool
  | [] => false
  | b :: rest => startsWord a b rest.head?

/-- The cut into words looks at a character and the ones behind it: only there it can put an
underscore. -/
theorem separateWords_cons (a : Char) (rest : List Char) :
    separateWords (a :: rest) =
      a.toLower :: if startsBehind a rest then '_' :: separateWords rest else separateWords rest := by
  cases rest with
  | nil => rfl
  | cons b rest =>
    rw [separateWords, startsBehind]
    split <;> rfl

/-- Apart from case and the underscores, cutting into words keeps every character. -/
theorem filter_separateWords {cs : List Char} (hcs : ∀ c ∈ cs, c.isAlphanum = true) :
    (separateWords cs).filter (· != '_') = cs.map Char.toLower := by
  induction cs with
  | nil => rfl
  | cons a rest ih =>
    obtain ⟨ha, hrest⟩ := List.forall_mem_cons.mp hcs
    have hkept : (a.toLower != '_') = true := bne_iff_ne.mpr (toLower_ne_underscore ha)
    rw [separateWords_cons, List.filter_cons, if_pos hkept, List.map_cons, ← ih hrest]
    split <;> rfl

/-- Words between single underscores: none stands at an end, and no two stand together. -/
structure SinglySeparated (cs : List Char) : Prop where
  head : cs.head? ≠ some '_'
  last : cs.getLast? ≠ some '_'
  single : ¬ ['_', '_'] <:+: cs

theorem SinglySeparated.cons {c : Char} {cs : List Char} (hc : c ≠ '_') (hcs : SinglySeparated cs) :
    SinglySeparated (c :: cs) := by
  refine ⟨by simpa using hc, ?_, ?_⟩
  · rw [List.getLast?_cons]
    cases hlast : cs.getLast? with
    | none => simpa using hc
    | some d => simpa [hlast] using hcs.last
  · rw [List.infix_cons_iff, not_or]
    exact ⟨fun hprefix => hc (List.cons_prefix_cons.mp hprefix).1.symm, hcs.single⟩

/-- An underscore can be put behind the first character when more follows. -/
theorem SinglySeparated.cons_underscore {c : Char} {cs : List Char} (hc : c ≠ '_')
    (hcs : SinglySeparated cs) (hne : cs ≠ []) : SinglySeparated (c :: '_' :: cs) := by
  refine ⟨by simpa using hc, ?_, ?_⟩
  · rw [List.getLast?_cons_cons, List.getLast?_cons_of_ne_nil hne]
    exact hcs.last
  · rw [List.infix_cons_iff, List.infix_cons_iff, not_or, not_or]
    refine ⟨fun hprefix => hc (List.cons_prefix_cons.mp hprefix).1.symm, fun hprefix => ?_, hcs.single⟩
    obtain ⟨rest, rfl⟩ := (List.cons_prefix_cons.mp hprefix).2
    exact hcs.head rfl

/-- Words are parted by one underscore, with none at either end. -/
theorem singlySeparated_separateWords {cs : List Char} (hcs : ∀ c ∈ cs, c.isAlphanum = true) :
    SinglySeparated (separateWords cs) := by
  induction cs with
  | nil => exact ⟨nofun, nofun, by simp [separateWords]⟩
  | cons a rest ih =>
    obtain ⟨ha, hrest⟩ := List.forall_mem_cons.mp hcs
    have hbehind := ih hrest
    rw [separateWords_cons]
    split
    · rename_i hstarts
      cases rest with
      | nil => cases hstarts
      | cons b rest =>
        refine hbehind.cons_underscore (toLower_ne_underscore ha) ?_
        rw [separateWords_cons]
        exact List.cons_ne_nil _ _
    · exact hbehind.cons (toLower_ne_underscore ha)

/-- The characters of words run together, the first of each word a capital and the others small. The
list starts a word when `starts` says so. -/
def recapitalize (starts : Bool) : List Char → List Char
  | [] => []
  | a :: rest =>
    (if starts then a.toUpper else a.toLower) :: recapitalize (startsBehind a rest) rest

/-- The pieces between underscores are the words: capitalized and run together they give the
characters of the words as they are in a name of its own. -/
theorem pieces_separateWords {cs : List Char} (hcs : ∀ c ∈ cs, c.isAlphanum = true) :
    ∃ word others, Text.pieces (!·.isAlphanum) (separateWords cs) = word :: others ∧
      word ++ (others.map capitalize).flatten = recapitalize false cs ∧
      capitalize word ++ (others.map capitalize).flatten = recapitalize true cs := by
  induction cs with
  | nil => exact ⟨[], [], rfl, rfl, rfl⟩
  | cons a rest ih =>
    obtain ⟨ha, hrest⟩ := List.forall_mem_cons.mp hcs
    obtain ⟨word, others, hpieces, hsmall, hcapital⟩ := ih hrest
    have hlower : (!a.toLower.isAlphanum) = false := by rw [isAlphanum_toLower ha, Bool.not_true]
    rw [separateWords_cons]
    cases hstarts : startsBehind a rest with
    | true =>
      have hcut : Text.pieces (!·.isAlphanum) ('_' :: separateWords rest) = [] :: word :: others := by
        rw [← hpieces]
        exact Text.pieces_append_cut (p := fun c : Char => !c.isAlphanum) rfl [] _
      refine ⟨[a.toLower], word :: others, Text.pieces_cons_of_not hlower hcut, ?_, ?_⟩
      · rw [List.map_cons, List.flatten_cons, hcapital, recapitalize, hstarts]
        rfl
      · rw [List.map_cons, List.flatten_cons, hcapital, recapitalize, hstarts, capitalize,
          Text.toUpper_toLower]
        rfl
    | false =>
      refine ⟨a.toLower :: word, others, Text.pieces_cons_of_not hlower hpieces, ?_, ?_⟩
      · rw [List.cons_append, hsmall, recapitalize, hstarts]
        rfl
      · rw [capitalize, List.cons_append, hsmall, recapitalize, hstarts,
          Text.toUpper_toLower]
        rfl

/-- Reading the words of a text back capitalizes just the characters that start one. -/
theorem pascalChars_separateWords {cs : List Char} (hcs : ∀ c ∈ cs, c.isAlphanum = true) :
    pascalChars (separateWords cs) = recapitalize true cs := by
  obtain ⟨word, others, hpieces, -, hcapital⟩ := pieces_separateWords hcs
  rw [pascalChars, hpieces, List.map_cons, List.flatten_cons, hcapital]

theorem head?_recapitalize (starts : Bool) (cs : List Char) :
    (recapitalize starts cs).head? =
      cs.head?.map fun c => if starts then c.toUpper else c.toLower := by
  cases cs <;> rfl

/-- Where a word starts: at a capital behind a small letter or digit, or at the last capital of a
row that goes on in small letters. -/
theorem startsWord_iff {a b : Char} {next : Option Char} : startsWord a b next = true ↔
    b.isUpper = true ∧ (a.isLower = true ∨ a.isDigit = true ∨
      a.isUpper = true ∧ ∃ c ∈ next, c.isLower = true) := by
  simp [startsWord, or_assoc, Option.any_eq_true]

/-- No word starts with a small letter. -/
theorem not_isLower_of_startsBehind {a : Char} {rest : List Char}
    (hstart : startsBehind a rest = true) : ∀ c ∈ rest.head?, ¬ c.isLower = true := by
  intro c hc
  cases rest with
  | nil => cases hc
  | cons b rest =>
    obtain rfl := Option.some.inj hc
    exact Text.not_isLower_of_isUpper (startsWord_iff.mp hstart).1

/-- A word starts behind a letter in either case, if that letter was small or stands inside a word.
Behind a capital it starts by the small letter that follows. -/
theorem startsWord_recased {a b : Char} {next next' : Option Char} {starts : Bool}
    (hword : startsWord a b next = true) (hstarts : starts = true → ¬ a.isLower = true)
    (hnext : ∀ c ∈ next, c.isLower = true → ∃ d ∈ next', d.isLower = true) :
    startsWord (if starts then a.toUpper else a.toLower) b.toUpper next' = true := by
  obtain ⟨hb, hbefore⟩ := startsWord_iff.mp hword
  refine startsWord_iff.mpr ⟨?_, ?_⟩
  · exact Text.isUpper_toUpper_iff.mpr (.inl hb)
  · obtain hlower | hdigit | ⟨hupper, c, hc, hsmall⟩ := hbefore
    · have hinside : ¬ starts = true := fun h => hstarts h hlower
      rw [if_neg hinside]
      exact .inl (Text.isLower_toLower_iff.mpr (.inr hlower))
    · obtain ⟨hlarge, hsmall⟩ := toUpper_eq_and_toLower_eq_of_isDigit hdigit
      rw [hlarge, hsmall, ite_self]
      exact .inr (.inl hdigit)
    · cases starts with
      | false => exact .inl (Text.isLower_toLower_iff.mpr (.inl hupper))
      | true =>
        exact .inr (.inr ⟨Text.isUpper_toUpper_iff.mpr (.inl hupper), hnext c hc hsmall⟩)

/-- Words start at the same places when the first letter of each is a capital and all others are
small. -/
theorem startsBehind_recapitalize {a : Char} (rest : List Char) {starts : Bool}
    (hstarts : starts = true → ¬ a.isLower = true) :
    startsBehind (if starts then a.toUpper else a.toLower)
      (recapitalize (startsBehind a rest) rest) = startsBehind a rest := by
  cases rest with
  | nil => rfl
  | cons b rest =>
    rw [recapitalize, startsBehind, startsBehind, head?_recapitalize]
    cases hword : startsWord a b rest.head? with
    | false => simp [startsWord, Text.not_isUpper_toLower]
    | true =>
      refine startsWord_recased hword hstarts fun c hc hsmall => ?_
      have hinside : ¬ startsBehind b rest = true :=
        fun hstart => not_isLower_of_startsBehind hstart c hc hsmall
      exact ⟨c.toLower, Option.map_eq_some_iff.mpr ⟨c, hc, if_neg hinside⟩,
        Text.isLower_toLower_iff.mpr (.inr hsmall)⟩

/-- Capitalizing word starts adds no boundary and removes none, so the words are those from before.
-/
theorem separateWords_recapitalize {cs : List Char} {starts : Bool}
    (hstarts : starts = true → ∀ c ∈ cs.head?, ¬ c.isLower = true) :
    separateWords (recapitalize starts cs) = separateWords cs := by
  induction cs generalizing starts with
  | nil => rfl
  | cons a rest ih =>
    have hfirst : starts = true → ¬ a.isLower = true := fun h => hstarts h a rfl
    have hsmall : (if starts then a.toUpper else a.toLower).toLower = a.toLower := by
      split
      · exact Text.toLower_toUpper a
      · exact Text.toLower_toLower a
    rw [recapitalize, separateWords_cons, separateWords_cons, startsBehind_recapitalize rest hfirst,
      ih not_isLower_of_startsBehind, hsmall]

/-- The words of a name in lower case are cut in the same places again. -/
theorem snakeChars_snakeChars (name : List Char) : snakeChars (snakeChars name) = snakeChars name := by
  have hchars : ∀ c ∈ pascalChars name, c.isAlphanum = true := fun _ => isAlphanum_of_mem_pascalChars
  have hfirst : true = true → ∀ c ∈ (pascalChars name).head?, ¬ c.isLower = true :=
    fun _ _ hc => not_isLower_of_head_pascalChars hc
  calc snakeChars (snakeChars name)
      = separateWords (recapitalize true (pascalChars name)) := by
        rw [snakeChars, snakeChars, pascalChars_separateWords hchars]
    _ = snakeChars name := separateWords_recapitalize hfirst

/-- Snake case is a normal form. A name in snake case, and one with its words run together, have the
snake case of the name they come from. It consists of small letters and digits with single
underscores inside, and without the underscores it has the ASCII letters and digits of the name, in
small letters and in order. -/
theorem snake_normal_form (name : String) :
    snake (snake name) = snake name ∧
      snake (pascal name) = snake name ∧
      IsSnake (snake name) ∧ SinglySeparated (snake name).toList ∧
      (snake name).toList.filter (· != '_') =
        (name.toList.filter Char.isAlphanum).map Char.toLower := by
  have hchars : ∀ c ∈ pascalChars name.toList, c.isAlphanum = true :=
    fun _ => isAlphanum_of_mem_pascalChars
  have hsnake : (snake name).toList = snakeChars name.toList := String.toList_ofList
  refine ⟨?_, ?_, isSnake_snake name, ?_, ?_⟩
  · rw [snake, hsnake, snakeChars_snakeChars, snake]
  · rw [snake, pascal, String.toList_ofList, snakeChars, pascalChars_pascalChars, ← snakeChars, snake]
  · rw [hsnake]
    exact singlySeparated_separateWords hchars
  · rw [hsnake, snakeChars, filter_separateWords hchars, map_toLower_pascalChars]

end PolicyForge.Identifier
