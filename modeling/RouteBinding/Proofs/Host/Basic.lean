import Mathlib.Tactic.Common
import RouteBinding.Host.Basic
import RouteBinding.Host.Path
import RouteBinding.Proofs.Outcome
import RouteBinding.Proofs.Text.Split

/-!
# Paths and changes of a host

A path that is put together has the names of both its parts (`Path.names_append`). The last name of a path is the end of
its text from the last slash on (`Path.getLast?_names_append`).

Making directories changes no file and takes no directory away (`FileTree.Grows`), and what has been made is not made
again. A file that is written changes the file at its own place only, and is found there under the path it was written
to (`Host.replaceText_eq_ok`).
-/

namespace RouteBinding

namespace Path

variable {base path name : String} {ns : List String}

/-- A name that can stand in a tidy path. -/
def IsName (name : String) : Prop :=
  name ≠ "" ∧ name ≠ "." ∧ '/' ∉ name.toList

/-- Each name of a path can stand in a tidy one. -/
theorem isName_of_mem_names (h : name ∈ names path) : IsName name := by
  obtain ⟨hsplit, hkept⟩ := List.mem_filter.1 h
  obtain ⟨piece, hpiece, rfl⟩ := List.mem_map.1 hsplit
  simp only [Bool.and_eq_true, decide_eq_true_eq] at hkept
  refine ⟨hkept.1, hkept.2, ?_⟩
  rw [String.toList_ofList]
  exact Text.notMem_of_mem_splitChars piece hpiece

/-- Nothing is dropped from a list of names. -/
theorem filter_names (h : ∀ name ∈ ns, IsName name) :
    (ns.filter fun name => name ≠ "" && name ≠ ".") = ns := by
  rw [List.filter_eq_self]
  intro name hname
  obtain ⟨hempty, hdot, -⟩ := h name hname
  simp [hempty, hdot]

/-- The names of names that are joined are these, and slashes in front of them count for nothing. -/
theorem names_join (h : ∀ name ∈ ns, IsName name) (slashes : Nat) :
    names (String.ofList (List.replicate slashes '/') ++ Text.join "/" ns) = ns := by
  have hsplit (s : String) : Text.split '/' (String.ofList (List.replicate slashes '/') ++ s) =
      List.replicate slashes "" ++ Text.split '/' s := by
    rw [Text.split, Text.split, String.toList_append, String.toList_ofList]
    induction slashes with
    | zero => rfl
    | succ slashes ih =>
      rw [List.replicate_succ, List.cons_append, Text.splitChars, if_pos rfl, List.map_cons, ih]
      rfl
  rw [names, hsplit, List.filter_append]
  have hslashes : ((List.replicate slashes "").filter fun name => name ≠ "" && name ≠ ".") = [] := by
    simp
  rw [hslashes, List.nil_append]
  cases ns with
  | nil => decide
  | cons first rest =>
    rw [Text.split, Text.toList_join_slash, Text.splitChars_joinChars, List.map_map]
    · have hid : (String.ofList ∘ String.toList) = id := by
        funext s
        exact String.ofList_toList
      rw [hid, List.map_id]
      exact filter_names h
    · exact List.cons_ne_nil _ _
    · intro piece hpiece
      obtain ⟨name, hname, rfl⟩ := List.mem_map.1 hpiece
      exact (h name hname).2.2

/-- The root of a path is made of slashes. -/
theorem exists_root (path : String) : ∃ slashes, root path = String.ofList (List.replicate slashes '/') := by
  unfold root
  split_ifs
  · exact ⟨0, rfl⟩
  · exact ⟨2, rfl⟩
  · exact ⟨1, rfl⟩

/-- A path that is put together from names has these names. -/
theorem names_ofNames (h : ∀ name ∈ ns, IsName name) (path : String) : names (ofNames (root path) ns) = ns := by
  obtain ⟨slashes, hroot⟩ := exists_root path
  rw [hroot, ofNames]
  split_ifs with hdot
  · simp only [Bool.and_eq_true, decide_eq_true_eq, List.isEmpty_iff] at hdot
    rw [hdot.2]
    decide
  · exact names_join h slashes

/-- A path seen from another has the names of both. -/
theorem names_append (h : isAbsolute path = false) : names (append base path) = names base ++ names path := by
  rw [append, h]
  apply names_ofNames
  intro name hname
  rcases List.mem_append.1 hname with hname | hname
  · exact isName_of_mem_names hname
  · exact isName_of_mem_names hname

/-- An end without a slash is the end of the last name. -/
theorem getLast?_names_append (s tail : String) (hslash : '/' ∉ tail.toList) (hlength : 2 ≤ tail.length) :
    ∃ last, (names (s ++ tail)).getLast? = some (last ++ tail) := by
  obtain ⟨init, last, -, happend⟩ := Text.exists_splitChars_append (s := s.toList) hslash
  refine ⟨String.ofList last, ?_⟩
  have hlong : 2 ≤ (String.ofList last ++ tail).length := by
    rw [String.length_append]
    omega
  have hempty : String.ofList last ++ tail ≠ "" := by
    intro heq
    rw [heq] at hlong
    exact absurd hlong (by decide)
  have hdot : String.ofList last ++ tail ≠ "." := by
    intro heq
    rw [heq] at hlong
    exact absurd hlong (by decide)
  rw [names, Text.split, String.toList_append, happend, List.map_append, List.filter_append, List.map_singleton,
    String.ofList_append, String.ofList_toList]
  simp [hempty, hdot]

end Path

end RouteBinding

namespace RouteBinding

/-- What stands under another key is found without the entries of a key. -/
theorem lookup_filter_ne {α β : Type} [BEq α] [LawfulBEq α] [DecidableEq α] {entries : List (α × β)} {a b : α}
    (h : a ≠ b) : (entries.filter (·.1 ≠ b)).lookup a = entries.lookup a := by
  induction entries with
  | nil => rfl
  | cons e rest ih =>
    obtain ⟨key, found⟩ := e
    by_cases hkey : key = b
    · have ha : (a == key) = false := by simpa [hkey] using h
      rw [List.filter_cons_of_neg (by simpa using hkey), ih, List.lookup_cons, ha]
    · rw [List.filter_cons_of_pos (by simpa using hkey), List.lookup_cons, List.lookup_cons, ih]

namespace FileTree

variable {t t' : FileTree} {place last p : Place} {entry : FileEntry} {way : List String} {content : ByteArray}

/-! ## Putting one entry -/

/-- A new entry changes nothing elsewhere. -/
theorem read?_put_of_ne (h : p ≠ place) : (t.put place entry).read? p = t.read? p := by
  have hp : (p == place) = false := by simpa using h
  rw [read?, read?, put, List.lookup_cons, hp]
  dsimp only
  rw [lookup_filter_ne h]

/-- A file that was put is read as it was put. -/
theorem read?_put_file : (t.put place (.file content)).read? place = some content := by
  simp [read?, put]

/-- A directory cannot be read. -/
theorem read?_put_directory : (t.put place .directory).read? place = none := by
  simp [read?, put]

/-- A directory stays one, unless a file is put in its place. -/
theorem isDirectory_put (hp : t.isDirectory p) (h : p ≠ place ∨ entry.isDirectory) :
    (t.put place entry).isDirectory p := by
  unfold isDirectory at hp ⊢
  rw [Bool.or_eq_true, List.any_eq_true] at hp ⊢
  refine hp.imp_right fun ⟨e, he, hstands⟩ => ?_
  by_cases heplace : e.1 = place
  · -- the new entry stands where this one stood
    refine ⟨(place, entry), List.mem_cons_self, ?_⟩
    rw [heplace] at hstands
    by_cases hpp : place = p
    · simpa [hpp] using h.resolve_left (not_not.2 hpp.symm)
    · simpa [hpp] using hstands
  · exact ⟨e, List.mem_cons_of_mem _ (List.mem_filter.2 ⟨he, by simpa using heplace⟩), hstands⟩

/-! ## Making directories -/

/-- The files stay as they are, and so do the directories; there may be more of these. -/
structure Grows (t t' : FileTree) : Prop where
  files : ∀ p, t'.read? p = t.read? p
  directories : ∀ p, t.isDirectory p → t'.isDirectory p

theorem Grows.refl (t : FileTree) : t.Grows t := ⟨fun _ => rfl, fun _ => id⟩

theorem Grows.trans {t'' : FileTree} (h : t.Grows t') (h' : t'.Grows t'') : t.Grows t'' :=
  ⟨fun p => (h'.files p).trans (h.files p), fun p hp => h'.directories p (h.directories p hp)⟩

/-- A tree that grows has the files that it had. -/
theorem Grows.isFile_eq (h : t.Grows t') (p : Place) : t'.isFile p = t.isFile p :=
  congrArg Option.isSome (h.files p)

/-- A tree grows by a directory where no file is. -/
theorem grows_put_directory (h : t.isFile place = false) : t.Grows (t.put place .directory) := by
  constructor
  · intro p
    by_cases hp : p = place
    · rw [hp, read?_put_directory]
      exact (Option.not_isSome_iff_eq_none.1 (by rw [← isFile, h]; decide)).symm
    · exact read?_put_of_ne hp
  · exact fun p hp => isDirectory_put hp (.inr rfl)

theorem isDirectory_put_directory : (t.put place .directory).isDirectory place := by
  simp [isDirectory, put, FileEntry.isDirectory]

/-- The tree with a directory at a place. -/
def withDirectory (t : FileTree) (place : Place) : FileTree :=
  if t.isDirectory place then t else t.put place .directory

/-- A tree grows when a directory is made where no file is. -/
theorem grows_withDirectory (h : t.isFile place = false) : t.Grows (t.withDirectory place) := by
  unfold withDirectory
  split_ifs
  · exact Grows.refl t
  · exact grows_put_directory h

/-- Where a directory has been made there is one. -/
theorem isDirectory_withDirectory : (t.withDirectory place).isDirectory place := by
  unfold withDirectory
  split_ifs with hdirectory
  · exact hdirectory
  · exact isDirectory_put_directory

/-- A name leads one level up, if it is two points, or to the place of that name, if it is not too long. -/
theorem enter_eq_ok {name : String} {next : Place} (h : enter place name = .ok next) :
    next = (if name = ".." then place.dropLast else place ++ [name]) ∧ name.utf8ByteSize ≤ mostBytesInName := by
  unfold enter at h
  split_ifs at h with hup hlong
  · cases h
    exact ⟨(if_pos hup).symm, by rw [hup]; decide⟩
  · cases h
    exact ⟨(if_neg hup).symm, by omega⟩

/-- A way whose directories are all there, and no file is in it. -/
def Clear (t : FileTree) (place : Place) (way : List String) : Prop :=
  (∀ name ∈ way, name.utf8ByteSize ≤ mostBytesInName) ∧
    ∀ p ∈ Path.stations place way, t.isDirectory p ∧ t.isFile p = false

/-- A way that has been made is clear, and nothing else has changed. -/
theorem clear_of_makeWay (h : t.makeWay place way = .ok (t', last)) : t.Grows t' ∧ t'.Clear place way := by
  induction way generalizing t place with
  | nil =>
    rw [makeWay] at h
    split_ifs at h with hfile hdirectory
    · cases h
      refine ⟨Grows.refl _, fun _ hname => (List.not_mem_nil hname).elim, fun p hp => ?_⟩
      rw [List.mem_singleton.1 hp]
      exact ⟨hdirectory, by simpa using hfile⟩
    · cases h
      have hfile : t.isFile last = false := by simpa using hfile
      refine ⟨grows_put_directory hfile, fun _ hname => (List.not_mem_nil hname).elim, fun p hp => ?_⟩
      rw [List.mem_singleton.1 hp]
      exact ⟨isDirectory_put_directory, ((grows_put_directory hfile).isFile_eq last).trans hfile⟩
  | cons name rest ih =>
    rw [makeWay] at h
    by_cases hfile : t.isFile place
    · rw [if_pos hfile] at h
      cases h
    · rw [if_neg hfile] at h
      have hfile : t.isFile place = false := by simpa using hfile
      cases henter : enter place name with
      | error e =>
        rw [henter] at h
        cases h
      | ok next =>
        rw [henter] at h
        obtain ⟨rfl, hname⟩ := enter_eq_ok henter
        -- first this directory is made, then the rest of the way
        have hmade : t.Grows (t.withDirectory place) := grows_withDirectory hfile
        obtain ⟨hgrows, hnames, hthere⟩ := ih (t := t.withDirectory place) h
        refine ⟨hmade.trans hgrows, List.forall_mem_cons.2 ⟨hname, hnames⟩, List.forall_mem_cons.2 ⟨?_, hthere⟩⟩
        exact ⟨hgrows.directories _ isDirectory_withDirectory,
          ((hmade.trans hgrows).isFile_eq place).trans hfile⟩

/-- A way that is clear is not made anew. -/
theorem exists_makeWay (h : t.Clear place way) : ∃ last, t.makeWay place way = .ok (t, last) := by
  obtain ⟨hnames, hthere⟩ := h
  induction way generalizing place with
  | nil =>
    obtain ⟨hdirectory, hfile⟩ := hthere place List.mem_cons_self
    exact ⟨place, by rw [makeWay, hdirectory, hfile]; rfl⟩
  | cons name rest ih =>
    obtain ⟨⟨hdirectory, hfile⟩, hrest⟩ := List.forall_mem_cons.1 hthere
    obtain ⟨hname, hnames⟩ := List.forall_mem_cons.1 hnames
    have henter : enter place name = .ok (if name = ".." then place.dropLast else place ++ [name]) := by
      rw [enter]
      split_ifs
      · rfl
      · omega
      · rfl
    rw [makeWay, hdirectory, hfile, henter]
    exact ih hnames hrest

/-- A way that is clear stays so as the tree grows. -/
theorem Clear.mono (h : t.Clear place way) (hgrows : t.Grows t') : t'.Clear place way :=
  ⟨h.1, fun p hp => ⟨hgrows.directories p (h.2 p hp).1, (hgrows.isFile_eq p).trans (h.2 p hp).2⟩⟩

/-! ## Writing a file -/

/-- What is put where no directory stands leaves every directory. -/
theorem isDirectory_put_of_isDirectory (hp : t.isDirectory p) (hplace : t.isDirectory place = false)
    (hfile : t.isFile p = false) : (t.put place entry).isDirectory p ∧ (t.put place entry).isFile p = false := by
  have hne : p ≠ place := by
    intro heq
    rw [heq, hplace] at hp
    cases hp
  refine ⟨isDirectory_put hp (.inl hne), ?_⟩
  rw [isFile, read?_put_of_ne hne]
  exact hfile

/-- A file is written where no directory stands, and so it is in no way. -/
theorem Clear.put (h : t.Clear place way) (hlast : t.isDirectory last = false) :
    (t.put last entry).Clear place way := by
  exact ⟨h.1, fun p hp => isDirectory_put_of_isDirectory (h.2 p hp).1 hlast (h.2 p hp).2⟩

/-- A way leads to the same place still where directories have been kept. -/
theorem follow_congr (h : t.follow place way = .ok last)
    (hkept : ∀ p, t.isDirectory p → t.isFile p = false → t'.isDirectory p ∧ t'.isFile p = false) :
    t'.follow place way = .ok last := by
  induction way generalizing place with
  | nil => exact h
  | cons name rest ih =>
    rw [follow] at h
    split_ifs at h with hfile hdirectory
    obtain ⟨hdirectory', hfile'⟩ := hkept place (by simpa using hdirectory) (by simpa using hfile)
    rw [follow, hfile', hdirectory']
    cases henter : enter place name with
    | error e =>
      rw [henter] at h
      cases h
    | ok next =>
      rw [henter] at h
      exact ih h

/-- A way that leads somewhere leads there still when the tree has grown. -/
theorem Grows.follow_eq (hgrows : t.Grows t') (h : t.follow place way = .ok last) : t'.follow place way = .ok last :=
  follow_congr h fun p hdirectory hfile => ⟨hgrows.directories p hdirectory, (hgrows.isFile_eq p).trans hfile⟩

/-- A way leads to the same place still when a file has been put where no directory stands. -/
theorem follow_put (h : t.follow place way = .ok last) (hp : t.isDirectory p = false) :
    (t.put p entry).follow place way = .ok last :=
  follow_congr h fun _ hdirectory hfile => isDirectory_put_of_isDirectory hdirectory hp hfile

/-- The last name of a way is the last one of the place it leads to. -/
theorem getLast?_of_follow {name : String} (h : t.follow place way = .ok last) (hname : way.getLast? = some name)
    (hup : name ≠ "..") : last.getLast? = some name := by
  induction way generalizing place with
  | nil => cases hname
  | cons first rest ih =>
    rw [follow] at h
    split_ifs at h
    cases henter : enter place first with
    | error e =>
      rw [henter] at h
      cases h
    | ok next =>
      rw [henter] at h
      cases rest with
      | nil =>
        cases h
        obtain rfl : first = name := Option.some.inj hname
        rw [(enter_eq_ok henter).1, if_neg hup, List.getLast?_concat]
      | cons second rest => exact ih h hname

end FileTree

namespace Host

variable {h h' : Host} {path content name : String} {place : Place} {way : List String} {files : Option FileTree}

/-- A host gets the files that a change gives, if it gives any. -/
theorem withFiles_eq_ok : h.withFiles files = .ok h' ↔ ∃ t, files = some t ∧ h' = { h with files := t } := by
  cases files <;> simp [withFiles, eq_comm]

/-- A way ends with the last name of its path. -/
theorem way_getLast? (h' : h.way path = .ok way) (hname : (Path.names path).getLast? = some name) :
    way.getLast? = some name := by
  unfold Host.way at h'
  split_ifs at h'
  cases h'
  unfold Path.way
  split_ifs
  · exact hname
  · rw [List.getLast?_append, hname]
    rfl

/-- The place of a path has the path's last name. -/
theorem getLast?_place (hplace : h.place path = .ok place) (hname : (Path.names path).getLast? = some name)
    (hup : name ≠ "..") : place.getLast? = some name := by
  obtain ⟨way, hway, hfollow⟩ := bind_eq_ok.1 hplace
  exact FileTree.getLast?_of_follow hfollow (way_getLast? hway hname) hup

/-- Where nothing has to be made the host stays as it is. -/
theorem makeDirectory_eq_self (hway : h.way path = .ok way) (hclear : h.files.Clear [] way) :
    h.makeDirectory path = .ok h := by
  obtain ⟨last, hmade⟩ := FileTree.exists_makeWay hclear
  rw [makeDirectory, hway]
  show h.withFiles ((h.files.makeWay [] way).toOption.bind fun made => some made.1) = .ok h
  rw [hmade]
  rfl

/-- Where a directory is made, its way is clear afterwards, and no file has changed. -/
theorem makeDirectory_eq_ok (hmade : h.makeDirectory path = .ok h') :
    ∃ t way, h' = { h with files := t } ∧ h.way path = .ok way ∧ h.files.Grows t ∧ t.Clear [] way := by
  obtain ⟨t, hfiles, rfl⟩ := withFiles_eq_ok.1 hmade
  obtain ⟨way, hway, hfiles⟩ := Option.bind_eq_some_iff.1 hfiles
  obtain ⟨⟨made, last⟩, hway', heq⟩ := Option.bind_eq_some_iff.1 hfiles
  cases heq
  obtain ⟨hgrows, hclear⟩ := FileTree.clear_of_makeWay (toOption_eq_some.1 hway')
  exact ⟨made, way, rfl, toOption_eq_some.1 hway, hgrows, hclear⟩

/-- Where a text takes the place of a file, directories are made first; then it stands at the place of the path. -/
theorem replaceText_eq_ok (hwritten : h.replaceText path content = .ok h') :
    ∃ t way place, h' = { h with files := t.put place (.file content.toUTF8) } ∧ h.way path = .ok way ∧
      h.files.Grows t ∧ t.follow [] way = .ok place ∧ t.isDirectory place = false := by
  obtain ⟨t', hfiles, rfl⟩ := withFiles_eq_ok.1 hwritten
  obtain ⟨way, hway, hfiles⟩ := Option.bind_eq_some_iff.1 hfiles
  dsimp only at hfiles
  split at hfiles
  · cases hfiles
  obtain ⟨⟨made, last⟩, hmade, hfiles⟩ := Option.bind_eq_some_iff.1 hfiles
  obtain ⟨place, hfollow, hfiles⟩ := Option.bind_eq_some_iff.1 hfiles
  unfold FileTree.write? at hfiles
  split_ifs at hfiles with hdirectory
  cases hfiles
  obtain ⟨hgrows, -⟩ := FileTree.clear_of_makeWay (toOption_eq_some.1 hmade)
  exact ⟨made, way, place, rfl, toOption_eq_some.1 hway, hgrows, toOption_eq_some.1 hfollow, by simpa using hdirectory⟩

/-- A text is read back from its bytes. -/
theorem fromUTF8?_toUTF8 (text : String) : String.fromUTF8? text.toUTF8 = some text := by
  unfold String.fromUTF8? String.toUTF8
  rw [dif_pos text.isValidUTF8]
  rfl

/-- A text that has taken the place of a file is read from the same path. -/
theorem readText?_of_replaceText (hwritten : h.replaceText path content = .ok h') :
    h'.isFile path = .ok true ∧ h'.readText? path = some content := by
  obtain ⟨t, way, place, rfl, hway, -, hfollow, hdirectory⟩ := replaceText_eq_ok hwritten
  have hplace : ({ h with files := t.put place (.file content.toUTF8) } : Host).place path = .ok place := by
    rw [Host.place, show Host.way { h with files := t.put place (.file content.toUTF8) } path = .ok way from hway]
    exact FileTree.follow_put hfollow hdirectory
  constructor
  · rw [isFile, hplace]
    show Except.ok (FileTree.isFile _ place) = _
    rw [FileTree.isFile, FileTree.read?_put_file]
    rfl
  · rw [readText?, hplace]
    show (FileTree.read? _ place).bind String.fromUTF8? = _
    rw [FileTree.read?_put_file, Option.bind_some, fromUTF8?_toUTF8]

/-! ## Messages and variables -/

/-- Only the files and the current directory have a part in where a path leads. -/
theorem place_congr (hfiles : h'.files = h.files) (hdirectory : h'.directory = h.directory) (path : String) :
    h'.place path = h.place path := by
  rw [Host.place, Host.place, Host.way, Host.way, hfiles, hdirectory]

/-- Where the files and the directory are the same, so is what is a file. -/
theorem isFile_congr (hfiles : h'.files = h.files) (hdirectory : h'.directory = h.directory) (path : String) :
    h'.isFile path = h.isFile path := by
  rw [isFile, isFile, place_congr hfiles hdirectory, hfiles]

/-- Where the files and the directory are the same, so is what is read. -/
theorem readText?_congr (hfiles : h'.files = h.files) (hdirectory : h'.directory = h.directory) (path : String) :
    h'.readText? path = h.readText? path := by
  rw [readText?, readText?, place_congr hfiles hdirectory, hfiles]

/-- A line that is written does not change how a directory is made. -/
theorem makeDirectory_note (hmade : h.makeDirectory path = .ok h') (line : String) :
    (h.note line).makeDirectory path = .ok (h'.note line) := by
  obtain ⟨t, hfiles, rfl⟩ := withFiles_eq_ok.1 hmade
  exact withFiles_eq_ok.2 ⟨t, hfiles, rfl⟩

/-- A variable that is set does not change how a directory is made. -/
theorem makeDirectory_setVariable (hmade : h.makeDirectory path = .ok h') (name : String) (value : Option String) :
    (h.setVariable name value).makeDirectory path = .ok (h'.setVariable name value) := by
  obtain ⟨t, hfiles, rfl⟩ := withFiles_eq_ok.1 hmade
  exact withFiles_eq_ok.2 ⟨t, hfiles, rfl⟩

/-- The other variables keep their values. -/
theorem filled?_setVariable_of_ne {other : String} (hne : other ≠ name) (value : Option String) :
    (h.setVariable name value).filled? other = h.filled? other := by
  have hkey : (other == name) = false := by simpa using hne
  rw [filled?, filled?, setting?, setting?, setVariable]
  cases value with
  | none => exact congrArg _ (lookup_filter_ne hne)
  | some value =>
    show Option.filter _ (List.lookup other ((name, value) :: _)) = _
    rw [List.lookup_cons, hkey]
    exact congrArg _ (lookup_filter_ne hne)

/-- A variable that is set to a text has it. -/
theorem filled?_setVariable_self {value : String} (hvalue : value ≠ "") :
    (h.setVariable name (some value)).filled? name = some value := by
  simp [filled?, setting?, setVariable, hvalue]

end Host

end RouteBinding
