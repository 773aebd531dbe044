import Mathlib.Data.List.Lex
import PolicyForge.FileTree.Path
import PolicyForge.Proofs.Text.Cut
import PolicyForge.Proofs.Text.Utf8

namespace PolicyForge.FileTree

variable {name other extension : Name}

/-- A name can be that of an entry when it is not empty, has no slash in it, and leads nowhere
else. -/
theorem Name.isEntry_iff : name.isEntry = true ↔
    name.bytes ≠ [] ∧ slash ∉ name.bytes ∧ name ≠ "." ∧ name ≠ ".." := by
  simp [isEntry, and_assoc]

theorem Name.ofText_injective : Function.Injective Name.ofText :=
  fun _ _ heq => Text.utf8_injective (Name.mk.inj heq)

@[simp]
theorem Name.text_ofText (text : String) : (Name.ofText text).text = text :=
  Text.lossy_utf8 text

instance isOrderConnected_byte : IsOrderConnected UInt8 (· < ·) where
  conn a b c hac := by
    simp only [UInt8.lt_iff_toNat_lt] at hac ⊢
    omega

/-- Bytes that are compared one by one are in order if they were in order all along. -/
instance isOrderConnected_name : IsOrderConnected Name (· < ·) where
  conn a b c hac := (List.Lex.isOrderConnected (· < ·)).conn a.bytes b.bytes c.bytes hac

instance : Std.Asymm (fun name other : Name => name < other) where
  asymm a b hab := (List.Lex.asymm (· < ·)).asymm a.bytes b.bytes hab

/-- Of two names, one stands in front of the other. -/
instance : Std.Trichotomous (fun name other : Name => name < other) where
  trichotomous a b hab hba :=
    congrArg Name.mk ((List.Lex.trichotomous (· < ·)).trichotomous a.bytes b.bytes hab hba)

namespace Path

/-- The names of a path that is cut at a slash are those on both sides. -/
theorem names_append_slash (front behind : List UInt8) :
    (⟨front ++ slash :: behind⟩ : Path).names =
      (⟨front⟩ : Path).names ++ (⟨behind⟩ : Path).names := by
  simp only [names]
  rw [Text.pieces_append_cut rfl, List.filterMap_append]

section

variable (hentry : name.isEntry = true)

include hentry

/-- The path of a name alone has this name. -/
theorem names_of_isEntry : (⟨name.bytes⟩ : Path).names = [name] := by
  obtain ⟨hne, hslash, -, -⟩ := Name.isEntry_iff.mp hentry
  have hpieces : Text.pieces (· == slash) name.bytes = [name.bytes] := by
    rw [Text.pieces_eq_singleton_iff]
    intro byte hbyte
    rw [beq_eq_false_iff_ne]
    rintro rfl
    exact hslash hbyte
  have hnonempty : ¬ name.bytes.isEmpty = true := by simpa using hne
  simp only [names, hpieces, List.filterMap_cons, List.filterMap_nil, if_neg hnonempty]

/-- The path of an entry has the names of the path of its directory, and its own. -/
theorem names_join (path : Path) : (path.join name).names = path.names ++ [name] := by
  obtain ⟨bytes⟩ := path
  unfold join
  split
  · rename_i hempty
    obtain rfl : bytes = [] := by simpa using hempty
    exact names_of_isEntry hentry
  · split
    · rename_i hslash
      obtain ⟨front, rfl⟩ := List.getLast?_eq_some_iff.mp (by simpa [endsInSlash] using hslash)
      have hempty : (⟨front ++ [slash]⟩ : Path).names = (⟨front⟩ : Path).names := by
        rw [names_append_slash]
        exact List.append_nil _
      rw [List.append_assoc, List.singleton_append, names_append_slash, names_of_isEntry hentry,
        hempty]
    · rw [names_append_slash, names_of_isEntry hentry]

/-- The path of an entry starts where the path of its directory starts. -/
theorem isAbsolute_join (path : Path) : (path.join name).isAbsolute = path.isAbsolute := by
  obtain ⟨-, hslash, -, -⟩ := Name.isEntry_iff.mp hentry
  unfold join
  split
  · rename_i hempty
    have hbytes : path.bytes = [] := by simpa using hempty
    have hhead : name.bytes.head? ≠ some slash := fun hhead => hslash (List.mem_of_head? hhead)
    simp [isAbsolute, hbytes, hhead]
  · rename_i hnonempty
    obtain ⟨byte, rest, hbytes⟩ : ∃ byte rest, path.bytes = byte :: rest := by
      apply List.exists_cons_of_ne_nil
      simpa using hnonempty
    split <;> simp [isAbsolute, hbytes]

theorem endsInSlash_join (path : Path) : (path.join name).endsInSlash = false := by
  obtain ⟨hne, hslash, -, -⟩ := Name.isEntry_iff.mp hentry
  obtain ⟨front, last, hbytes⟩ : ∃ front last, name.bytes = front ++ [last] :=
    ⟨_, _, (List.dropLast_concat_getLast hne).symm⟩
  have hlast : last ≠ slash := by
    rintro rfl
    simp [hbytes] at hslash
  unfold join
  split
  · simp [endsInSlash, hbytes, hlast]
  · split <;> simp [endsInSlash, hbytes, List.getLast?_cons, hlast]

end

end Path

/-- A name with an extension is its stem, a dot and the extension. -/
theorem bytes_of_hasExtension (hname : hasExtension extension name = true) :
    name.bytes = (stem name).bytes ++ dot :: extension.bytes := by
  rw [hasExtension, beq_iff_eq] at hname
  rw [stem]
  unfold splitExtension at hname ⊢
  dsimp only at hname ⊢
  split at hname
  · rename_i byte reversed hdrop
    split at hname
    · cases hname
    · rename_i hne
      obtain rfl := Option.some.inj hname
      have hdot : byte = dot := by
        have hhead := List.head?_dropWhile_not (· != dot) name.bytes.reverse
        simpa [hdrop] using hhead
      have hsplit := List.takeWhile_append_dropWhile (p := (· != dot)) (l := name.bytes.reverse)
      rw [hdrop, hdot] at hsplit
      rw [← List.reverse_inj, if_neg hne]
      simp [hsplit]
  · cases hname

/-- A name is shown as its stem, a dot and its extension are. -/
theorem text_of_hasExtension (hname : hasExtension extension name = true) :
    name.text = (stem name).text ++ "." ++ extension.text := by
  rw [Name.text, bytes_of_hasExtension hname, Text.lossy_append_single (by decide)]
  rfl

end PolicyForge.FileTree
