import Mathlib.Data.List.Induction
import PolicyForge.FileTree.Basic
import PolicyForge.Proofs.Failing
import PolicyForge.Proofs.FileTree.Path
import PolicyForge.Proofs.Ordered

namespace PolicyForge.FileTree

variable {tree after : FileTree} {location target : List Name} {names : List Name} {path : Path}
  {text : String}

/-- A node that was put in its place is there. -/
theorem node?_put_self (hfits : tree.Fits location) (node : Node) :
    (tree.put location node hfits).node? location = some node := by
  obtain ⟨parent, name, rfl, -, -⟩ := isPlaced_iff.mp hfits.1
  exact nodeAt_update_self (by simp) node

/-- Nothing changes elsewhere when a node is put in its place. -/
theorem node?_put_of_ne (hfits : tree.Fits location) {other : List Name} (hne : other ≠ location)
    (node : Node) : (tree.put location node hfits).node? other = tree.node? other :=
  nodeAt_update_of_ne hne node

/-- What is at a location of a tree is an entry of a directory, or the top of the tree. -/
theorem exists_of_node?_eq_some {node : Node} (hnode : tree.node? location = some node)
    (hne : location ≠ []) : ∃ parent name, location = parent ++ [name] ∧ name.isEntry = true ∧
      tree.node? parent = some .directory := by
  rw [node?, nodeAt, if_neg (by simpa using hne)] at hnode
  obtain ⟨before, after, hnodes, -⟩ := List.lookup_eq_some_iff.mp hnode
  have hmem : location ∈ tree.nodes.map (·.1) := by simp [hnodes]
  exact isPlaced_iff.mp (tree.wellFormed.placed location hmem)

theorem enter_eq_ok_iff {done : Unit} :
    tree.enter location = .ok done ↔ tree.node? location = some .directory := by
  unfold enter
  split <;> simp_all

/-- Where names lead from a location if they can be followed. -/
def landing (location : List Name) (names : List Name) : List Name :=
  names.foldl move location

theorem landing_concat (location names : List Name) (name : Name) :
    landing location (names ++ [name]) = move (landing location names) name := by
  rw [landing, List.foldl_append]
  rfl

theorem follow_cons (tree : FileTree) (location : List Name) (name : Name)
    (names : List Name) : tree.follow location (name :: names) =
      tree.enter location >>= fun _ => checkName name >>= fun _ =>
        tree.follow (move location name) names :=
  rfl

/-- Names can be followed when each is short enough and looked up in a directory. -/
theorem follow_eq_ok_iff : tree.follow location names = .ok target ↔
    target = landing location names ∧ ∀ before name, before ++ [name] <+: names →
      tree.node? (landing location before) = some .directory ∧ checkName name = .ok () := by
  induction names generalizing location with
  | nil =>
    rw [follow, Except.ok.injEq]
    refine ⟨fun heq => ⟨heq.symm, ?_⟩, fun ⟨heq, _⟩ => heq.symm⟩
    intro before name hbegin
    simp at hbegin
  | cons own names ih =>
    simp only [follow_cons, Failing.bind_eq_ok, enter_eq_ok_iff, ih]
    constructor
    · rintro ⟨_, hdirectory, _, hname, heq, hrest⟩
      refine ⟨heq, ?_⟩
      rintro (_ | ⟨first, before⟩) name hbegin
      · obtain ⟨rfl, -⟩ := List.cons_prefix_cons.mp hbegin
        exact ⟨hdirectory, hname⟩
      · obtain ⟨rfl, hbehind⟩ := List.cons_prefix_cons.mp hbegin
        exact hrest before name hbehind
    · rintro ⟨heq, hall⟩
      obtain ⟨hdirectory, hname⟩ := hall [] own (by simp)
      refine ⟨(), hdirectory, (), hname, heq, ?_⟩
      intro before name hbegin
      exact hall (own :: before) name (List.cons_prefix_cons.mpr ⟨rfl, hbegin⟩)

/-- Names can be followed to the last when the others lead to a directory and the last is no longer
than allowed. -/
theorem follow_concat_eq_ok_iff {name : Name} :
    tree.follow location (names ++ [name]) = .ok target ↔
      target = move (landing location names) name ∧
      tree.follow location names = .ok (landing location names) ∧
      tree.node? (landing location names) = some .directory ∧ checkName name = .ok () := by
  simp only [follow_eq_ok_iff, landing_concat, true_and]
  refine and_congr_right fun _ => ?_
  constructor
  · intro hall
    refine ⟨fun before other hbegin => ?_, hall names name List.prefix_rfl⟩
    exact hall before other (hbegin.trans (List.prefix_append names [name]))
  · rintro ⟨hall, hlast⟩ before other hbegin
    obtain heq | hbegin := List.prefix_concat_iff.mp hbegin
    · obtain ⟨rfl, rfl⟩ := List.append_singleton_inj.mp heq
      exact hlast
    · exact hall before other hbegin

theorem checkName_of_follow (hok : tree.follow location names = .ok target) :
    ∀ name ∈ names, checkName name = .ok () := by
  intro name hmem
  obtain ⟨before, behind, rfl⟩ := List.append_of_mem hmem
  exact ((follow_eq_ok_iff.mp hok).2 before name ⟨behind, by simp⟩).2

/-- Names lead to a directory when they can be followed and one is there. -/
theorem leadsToDirectory_iff : tree.leadsToDirectory location names = true ↔
    tree.follow location names = .ok (landing location names) ∧
      tree.node? (landing location names) = some .directory := by
  unfold leadsToDirectory
  constructor
  · intro hleads
    split at hleads
    · rename_i target hfollow
      obtain ⟨rfl, -⟩ := follow_eq_ok_iff.mp hfollow
      exact ⟨hfollow, by simpa using hleads⟩
    · cases hleads
  · rintro ⟨hfollow, hnode⟩
    simp [hfollow, hnode]

/-- A path leads to a location when it passes the checks of its text, its names can be followed, and
a slash at its end is met by a directory. -/
theorem locate_eq_ok_iff : tree.locate path = .ok target ↔
    path.check = .ok () ∧ tree.follow (tree.start path) path.names = .ok target ∧
      (path.endsInSlash = true → tree.node? target = some .directory) := by
  unfold locate
  simp only [Failing.bind_eq_ok]
  constructor
  · rintro ⟨_, hcheck, own, hfollow, hslash⟩
    refine ⟨hcheck, ?_⟩
    split at hslash
    · obtain ⟨_, henter, heq⟩ := Failing.bind_eq_ok.mp hslash
      obtain rfl := Except.ok.inj heq
      exact ⟨hfollow, fun _ => enter_eq_ok_iff.mp henter⟩
    · rename_i hnone
      obtain rfl := Except.ok.inj hslash
      exact ⟨hfollow, fun hends => absurd hends hnone⟩
  · rintro ⟨hcheck, hfollow, hslash⟩
    refine ⟨(), hcheck, target, hfollow, ?_⟩
    split
    · rename_i hends
      have henter : tree.enter target = .ok () := enter_eq_ok_iff.mpr (hslash hends)
      rw [henter]
      rfl
    · rfl

/-- The path of a directory passes the checks of its text, and its names lead there. -/
theorem leadsToDirectory_of_isDirectory (hdirectory : tree.isDirectory path = true) :
    path.check = .ok () ∧ tree.leadsToDirectory (tree.start path) path.names = true := by
  have hfind : tree.find path = .ok .directory := by
    rw [isDirectory] at hdirectory
    cases hfind : tree.find path <;> simp_all [Except.toOption]
  obtain ⟨location, hlocate, hnode⟩ := Failing.bind_eq_ok.mp hfind
  obtain ⟨hcheck, hfollow, -⟩ := locate_eq_ok_iff.mp hlocate
  obtain ⟨rfl, -⟩ := follow_eq_ok_iff.mp hfollow
  refine ⟨hcheck, leadsToDirectory_iff.mpr ⟨hfollow, ?_⟩⟩
  split at hnode
  · rename_i node hthere
    rw [hthere, Except.ok.inj hnode]
  · cases hnode

/-- Bytes are text when they are what the text is written as, so a text determines its file. -/
theorem fromUTF8?_eq_some_iff {contents : ByteArray} :
    String.fromUTF8? contents = some text ↔ contents = text.toUTF8 := by
  unfold String.fromUTF8?
  constructor
  · intro hsome
    split at hsome
    · rw [← Option.some.inj hsome]
      rfl
    · cases hsome
  · rintro rfl
    exact dif_pos text.isValidUTF8

/-- What is read from a path is the text whose bytes the file holds. -/
theorem readText_eq_ok_iff : tree.readText path = .ok text ↔
    ∃ location, tree.locate path = .ok location ∧
      tree.node? location = some (.file text.toUTF8) := by
  simp only [readText, find, bind_assoc, Failing.bind_eq_ok]
  refine exists_congr fun location => and_congr_right fun _ => ?_
  cases tree.node? location with
  | none => simp
  | some node =>
    cases node with
    | directory => simp
    | file contents =>
      have hcontents : String.fromUTF8? contents = some text ↔ contents = text.toUTF8 :=
        fromUTF8?_eq_some_iff
      cases hread : String.fromUTF8? contents <;> simp_all

/-- The name of an entry leads one level down. -/
theorem move_of_isEntry {name : Name} (hentry : name.isEntry = true) (location : List Name) :
    move location name = location ++ [name] := by
  obtain ⟨-, -, hdot, hdots⟩ := Name.isEntry_iff.mp hentry
  simp [move, hdot, hdots]

/-- The names in a path can be those of entries, but for the two that lead elsewhere. -/
theorem isEntry_of_mem_names {name : Name} (hmem : name ∈ path.names) (hdot : name ≠ ".")
    (hdots : name ≠ "..") : name.isEntry = true := by
  obtain ⟨piece, hpiece, hname⟩ := List.mem_filterMap.mp hmem
  split at hname
  · cases hname
  · rename_i hne
    obtain rfl := Option.some.inj hname
    refine Name.isEntry_iff.mpr ⟨by simpa using hne, fun hslash => ?_, hdot, hdots⟩
    exact absurd (Text.not_of_mem_pieces hpiece hslash) (by decide)

/-- A path that has no names and can be looked up starts from the top. -/
theorem start_of_names_eq_nil (hnames : path.names = []) (hcheck : path.check = .ok ()) :
    tree.start path = [] := by
  have hslashes : path.bytes.filter (!(· == slash) ·) = [] := by
    rw [← Text.flatten_pieces, List.flatten_eq_nil_iff]
    intro piece hpiece
    have hnone := List.filterMap_eq_nil_iff.mp hnames piece hpiece
    by_contra hne
    simp [hne] at hnone
  cases hbytes : path.bytes with
  | nil => simp [Path.check, hbytes] at hcheck
  | cons byte rest =>
    have hbyte : byte = slash := by
      rw [List.filter_eq_nil_iff] at hslashes
      simpa using hslashes byte (by simp [hbytes])
    rw [start, if_pos (by simp [Path.isAbsolute, hbytes, hbyte])]

/-- Where a path leads to, there is a directory, or there is room for a node. -/
theorem fits_of_locate (hlocate : tree.locate path = .ok location)
    (hfree : tree.node? location ≠ some .directory) : tree.Fits location := by
  obtain ⟨hcheck, hfollow, -⟩ := locate_eq_ok_iff.mp hlocate
  refine ⟨?_, hfree⟩
  obtain hnames | ⟨front, name, hnames⟩ := List.eq_nil_or_concat' path.names
  · rw [start_of_names_eq_nil hnames hcheck, hnames] at hfollow
    obtain rfl := Except.ok.inj hfollow
    exact absurd rfl hfree
  · rw [hnames] at hfollow
    obtain ⟨rfl, -, hdirectory, -⟩ := follow_concat_eq_ok_iff.mp hfollow
    by_cases hdot : name = "."
    · rw [move, if_pos (beq_iff_eq.mpr hdot)] at hfree
      exact absurd hdirectory hfree
    · by_cases hdots : name = ".."
      · rw [move, if_neg (mt beq_iff_eq.mp hdot), if_pos (beq_iff_eq.mpr hdots)] at hfree
        generalize landing (tree.start path) front = place at hdirectory hfree
        by_cases htop : place = []
        · rw [htop] at hfree
          exact absurd rfl hfree
        · obtain ⟨parent, own, rfl, -, hparent⟩ := exists_of_node?_eq_some hdirectory htop
          rw [List.dropLast_concat] at hfree
          exact absurd hparent hfree
      · have hmem : name ∈ path.names := by simp [hnames]
        have hentry := isEntry_of_mem_names hmem hdot hdots
        rw [move_of_isEntry hentry]
        exact isPlaced_iff.mpr ⟨_, name, rfl, hentry, hdirectory⟩

/-- A text is written where a path leads to, unless there is a directory. -/
theorem writeText_eq_ok_iff : tree.writeText path text = .ok after ↔
    ∃ location, tree.locate path = .ok location ∧
      ∃ hfits : tree.Fits location, tree.put location (.file text.toUTF8) hfits = after := by
  simp only [writeText, Failing.bind_eq_ok]
  refine exists_congr fun location => and_congr_right fun _ => ?_
  split
  · rename_i hfits
    simp [hfits]
  · rename_i hfits
    simp [hfits]

/-- Writing fails where the path leads nowhere, or to a directory. -/
theorem writeText_eq_error_iff {fault : Fault} : tree.writeText path text = .error fault ↔
    tree.locate path = .error fault ∨ ∃ location, tree.locate path = .ok location ∧
      tree.node? location = some .directory ∧ fault = .isDirectory := by
  simp only [writeText, Failing.bind_eq_error]
  refine or_congr_right (exists_congr fun location => and_congr_right fun hlocate => ?_)
  split
  · rename_i hfits
    simp [hfits.2]
  · rename_i hfits
    have hdirectory : tree.node? location = some .directory :=
      not_not.mp fun hfree => hfits (fits_of_locate hlocate hfree)
    simp [hdirectory, eq_comm]

/-- The location of an entry of the directory that a path leads to. -/
def entryLocation (tree : FileTree) (path : Path) (name : Name) : List Name :=
  landing (tree.start path) path.names ++ [name]

theorem entryLocation_inj {name other : Name} :
    tree.entryLocation path name = tree.entryLocation path other ↔ name = other := by
  simp [entryLocation]

/-- The path of an entry leads to its location, if the path of the directory leads to one. -/
theorem locate_join_eq_ok_iff {name : Name} (hentry : name.isEntry = true) :
    tree.locate (path.join name) = .ok target ↔ (path.join name).check = .ok () ∧
      tree.leadsToDirectory (tree.start path) path.names = true ∧ checkName name = .ok () ∧
      target = tree.entryLocation path name := by
  have hstart : tree.start (path.join name) = tree.start path := by
    rw [start, start, Path.isAbsolute_join hentry]
  rw [locate_eq_ok_iff, hstart, Path.names_join hentry, Path.endsInSlash_join hentry,
    follow_concat_eq_ok_iff, leadsToDirectory_iff, move_of_isEntry hentry, entryLocation]
  simp only [reduceCtorEq, false_imp_iff, and_true]
  tauto

/-- The directories of a tree are directories in another one, and relative paths start from where
they did. -/
structure KeepsDirectories (tree after : FileTree) : Prop where
  current : after.current = tree.current
  directory : ∀ location, tree.node? location = some .directory →
    after.node? location = some .directory

namespace KeepsDirectories

theorem start (hkeeps : KeepsDirectories tree after) (path : Path) :
    after.start path = tree.start path := by
  rw [FileTree.start, FileTree.start, hkeeps.current]

theorem follow (hkeeps : KeepsDirectories tree after)
    (hok : tree.follow location names = .ok target) :
    after.follow location names = .ok target := by
  rw [follow_eq_ok_iff] at hok ⊢
  refine ⟨hok.1, fun before name hbegin => ?_⟩
  obtain ⟨hdirectory, hname⟩ := hok.2 before name hbegin
  exact ⟨hkeeps.directory _ hdirectory, hname⟩

theorem leadsToDirectory (hkeeps : KeepsDirectories tree after)
    (hleads : tree.leadsToDirectory location names = true) :
    after.leadsToDirectory location names = true := by
  rw [leadsToDirectory_iff] at hleads ⊢
  exact ⟨hkeeps.follow hleads.1, hkeeps.directory _ hleads.2⟩

theorem locate (hkeeps : KeepsDirectories tree after) (hok : tree.locate path = .ok target) :
    after.locate path = .ok target := by
  rw [locate_eq_ok_iff] at hok ⊢
  obtain ⟨hcheck, hfollow, hslash⟩ := hok
  rw [hkeeps.start]
  exact ⟨hcheck, hkeeps.follow hfollow, fun hends => hkeeps.directory _ (hslash hends)⟩

theorem entryLocation (hkeeps : KeepsDirectories tree after) (path : Path) (name : Name) :
    after.entryLocation path name = tree.entryLocation path name := by
  rw [FileTree.entryLocation, FileTree.entryLocation, hkeeps.start]

end KeepsDirectories

/-- What is above something in a tree is a directory. -/
theorem node?_of_prefix {node : Node} (hnode : tree.node? location = some node)
    {above : List Name} (hbegin : above <+: location) (hne : above ≠ location) :
    tree.node? above = some .directory := by
  induction location using List.reverseRecOn generalizing node with
  | nil => exact absurd (List.prefix_nil.mp hbegin) hne
  | append_singleton front name ih =>
    obtain ⟨parent, own, heq, -, hparent⟩ := exists_of_node?_eq_some hnode (by simp)
    obtain ⟨rfl, -⟩ := List.append_singleton_inj.mp heq
    have habove : above <+: front := (List.prefix_concat_iff.mp hbegin).resolve_left hne
    by_cases heq : above = front
    · rw [heq, hparent]
    · exact ih hparent habove heq

/-- Names lead further down from where those in front of them lead, if none leads up. -/
theorem landing_prefix_landing {before : List Name} (hdots : (".." : Name) ∉ names)
    (hbegin : before <+: names) : landing location before <+: landing location names := by
  induction names using List.reverseRecOn with
  | nil =>
    obtain rfl := List.prefix_nil.mp hbegin
    exact List.prefix_rfl
  | append_singleton front name ih =>
    rw [List.mem_append, List.mem_singleton, not_or] at hdots
    obtain rfl | hfront := List.prefix_concat_iff.mp hbegin
    · exact List.prefix_rfl
    · have hmove : landing location front <+: landing location (front ++ [name]) := by
        rw [landing_concat, move]
        split
        · exact List.prefix_rfl
        · rw [if_neg (by simpa using Ne.symm hdots.2)]
          exact List.prefix_append _ _
      exact (ih hdots.1 hfront).trans hmove

/-- Names that never lead up can be followed to what is there. -/
theorem leadsToDirectory_of_node? {node : Node} {entry : Name} (hdots : (".." : Name) ∉ names)
    (hnames : ∀ name ∈ names, checkName name = .ok ())
    (hnode : tree.node? (landing location names ++ [entry]) = some node) :
    tree.leadsToDirectory location names = true := by
  have hdirectory : ∀ before, before <+: names →
      tree.node? (landing location before) = some .directory := by
    intro before hbegin
    have hland : landing location before <+: landing location names :=
      landing_prefix_landing hdots hbegin
    refine node?_of_prefix hnode (hland.trans (List.prefix_append _ _)) ?_
    intro heq
    have hlength := hland.length_le
    rw [heq, List.length_append, List.length_singleton] at hlength
    omega
  refine leadsToDirectory_iff.mpr ⟨follow_eq_ok_iff.mpr ⟨rfl, ?_⟩, hdirectory names List.prefix_rfl⟩
  intro before name hbegin
  exact ⟨hdirectory before ((List.prefix_append _ _).trans hbegin),
    hnames name (hbegin.subset (by simp))⟩

end PolicyForge.FileTree
