import AdicCore.Library.Calls
import AdicCore.Library.HashMap

open Calls HashMap

namespace FileSystem

/-- The components of an absolute path, from the root. -/
abbrev Path := List String

abbrev Location := List String

/-- Empty components and those that name the directory itself are left out. -/
def components (text : String) : List String :=
  ((text.toList.splitOn '/').map String.ofList).filter fun part => part ≠ "" ∧ part ≠ "."

/-- An absolute part replaces the path. -/
def join (path : Path) (part : String) : Path :=
  if part.toList.head? = some '/' then components part else path ++ components part

def follow (here : Location) (part : String) : Location := if part = ".." then here.dropLast else here ++ [part]

def resolve (path : Path) : Location := path.foldl follow []

structure Plain (part : String) : Prop where
  noSlash : '/' ∉ part.toList
  nonempty : part ≠ ""
  notHere : part ≠ "."
  notParent : part ≠ ".."

instance (part : String) : Decidable (Plain part) :=
  decidable_of_iff ('/' ∉ part.toList ∧ part ≠ "" ∧ part ≠ "." ∧ part ≠ "..")
    ⟨fun ⟨noSlash, nonempty, notHere, notParent⟩ => ⟨noSlash, nonempty, notHere, notParent⟩,
      fun ⟨noSlash, nonempty, notHere, notParent⟩ => ⟨noSlash, nonempty, notHere, notParent⟩⟩

inductive Entry where
  | directory
  | file (data : List UInt8)
deriving DecidableEq

/-- The files opened for writing are listed in order. The system may refuse a path, as one that is too long. -/
structure Disk where
  accepts : Path → Bool
  entries : Table Location Entry
  written : List Location

inductive FileError where
  | refused
  | notFound
  | alreadyExists
  | isADirectory

namespace Disk

def entryAt (disk : Disk) (location : Location) : Option Entry :=
  if location = [] then some .directory else disk.entries.lookup location

def isDirectory (disk : Disk) (location : Location) : Bool := disk.entryAt location = some .directory

def fileAt (disk : Disk) (location : Location) : Option (List UInt8) :=
  match disk.entryAt location with
  | some (.file data) => some data
  | _ => none

def store (disk : Disk) (location : Location) (data : List UInt8) : Disk :=
  { disk with entries := disk.entries.insert location (.file data), written := disk.written ++ [location] }

def reaches (disk : Disk) (path : Path) : Bool :=
  path.inits.all fun parent => parent = path || disk.isDirectory (resolve parent)

def pathExists (disk : Disk) (path : Path) : Bool :=
  disk.accepts path && disk.reaches path && (disk.entryAt (resolve path)).isSome

end Disk

def locate (path : Path) : EStateM FileError Disk Location := do
  let disk ← get
  if ¬ disk.accepts path then throw .refused
  else if ¬ disk.reaches path then throw .notFound
  else return resolve path

def createDir (path : Path) : EStateM FileError Disk Unit := do
  let location ← locate path
  let disk ← get
  if disk.isDirectory location then return ()
  else if (disk.entryAt location).isSome then throw .alreadyExists
  else set { disk with entries := disk.entries.insert location .directory }

def createDirAll (path : Path) : EStateM FileError Disk Unit := do
  if ¬ (← get).accepts path then throw .refused
  else path.inits.forM createDir

def write (path : Path) (data : List UInt8) : EStateM FileError Disk Unit := do
  let location ← locate path
  let disk ← get
  if disk.isDirectory location then throw .isADirectory
  else set (disk.store location data)

def create (path : Path) : EStateM FileError Disk Unit := write path []

def append (location : Location) (data : List UInt8) : EStateM FileError Disk Unit :=
  modify fun disk => { disk with
    entries := disk.entries.insert location (.file ((disk.fileAt location).getD [] ++ data)) }

def read (path : Path) : EStateM FileError Disk (List UInt8) := do
  let location ← locate path
  let disk ← get
  if disk.isDirectory location then throw .isADirectory
  else
    match disk.fileAt location with
    | some data => return data
    | none => throw .notFound

section

variable {text part last : String} {path : Path} {parts : List String} {here location : Location}

theorem components_plain (plain : Plain part) : components part = [part] := by
  unfold components
  rw [List.splitOn_eq_singleton plain.noSlash, List.map_singleton, String.ofList_toList]
  simp [plain.nonempty, plain.notHere]

theorem noSlash_of_split {letters piece : List Char} (member : piece ∈ letters.splitOn '/') : '/' ∉ piece := by
  induction letters generalizing piece with
  | nil =>
    rw [List.splitOn_nil, List.mem_singleton] at member
    rw [member]
    exact List.not_mem_nil
  | cons letter letters ih =>
    rw [List.splitOn_cons_eq_if_modifyHead] at member
    split at member
    · rcases List.mem_cons.mp member with rfl | later
      · exact List.not_mem_nil
      · exact ih later
    · next different =>
      obtain ⟨first, rest, split⟩ := List.exists_cons_of_ne_nil (List.splitOn_ne_nil '/' letters)
      rw [split, List.modifyHead_cons] at member
      rcases List.mem_cons.mp member with rfl | later
      · intro inside
        rcases List.mem_cons.mp inside with same | inside
        · exact different (beq_iff_eq.mpr same.symm)
        · exact ih (split ▸ List.mem_cons_self) inside
      · exact ih (split ▸ List.mem_cons_of_mem first later)

theorem plain_of_component (member : part ∈ components text) (notParent : part ≠ "..") : Plain part := by
  unfold components at member
  obtain ⟨member, kept⟩ := List.mem_filter.mp member
  obtain ⟨piece, split, rfl⟩ := List.mem_map.mp member
  obtain ⟨nonempty, notHere⟩ := of_decide_eq_true kept
  exact ⟨by rw [String.toList_ofList]; exact noSlash_of_split split, nonempty, notHere, notParent⟩

theorem join_plain (plain : Plain part) : join path part = path ++ [part] := by
  unfold join
  rw [components_plain plain, if_neg]
  intro absolute
  exact plain.noSlash (List.mem_of_head? absolute)

theorem resolve_append : resolve (path ++ parts) = parts.foldl follow (resolve path) := List.foldl_append

theorem resolve_concat (notParent : part ≠ "..") : resolve (path ++ [part]) = resolve path ++ [part] := by
  rw [resolve_append]
  exact if_neg notParent

theorem foldl_follow (here : Location) (parts : List String) :
    ∃ top kept, parts.foldl follow here = top ++ kept ∧ top <+: here ∧ ∀ part ∈ kept, part ∈ parts ∧ part ≠ ".." := by
  induction parts using List.reverseRecOn with
  | nil => exact ⟨here, [], (List.append_nil here).symm, List.prefix_rfl, fun _ member => (nomatch member)⟩
  | append_singleton parts part ih =>
    obtain ⟨top, kept, led, above, own⟩ := ih
    rw [List.foldl_append, led]
    show ∃ top' kept', follow (top ++ kept) part = top' ++ kept' ∧ _
    unfold follow
    by_cases parent : part = ".."
    · rw [if_pos parent]
      rcases List.eq_nil_or_concat' kept with rfl | ⟨kept, last, rfl⟩
      · exact ⟨top.dropLast, [], by simp, (List.dropLast_prefix top).trans above, fun _ member => (nomatch member)⟩
      · refine ⟨top, kept, by rw [← List.append_assoc, List.dropLast_concat], above, fun other member => ?_⟩
        obtain ⟨listed, notParent⟩ := own other (List.mem_append_left _ member)
        exact ⟨List.mem_append_left _ listed, notParent⟩
    · rw [if_neg parent]
      refine ⟨top, kept ++ [part], List.append_assoc top kept [part], above, fun other member => ?_⟩
      rcases List.mem_append.mp member with member | same
      · obtain ⟨listed, notParent⟩ := own other member
        exact ⟨List.mem_append_left _ listed, notParent⟩
      · rw [List.mem_singleton.mp same]
        exact ⟨List.mem_append_right _ List.mem_cons_self, parent⟩

theorem last_of_foldl_follow (led : parts.foldl follow here = location ++ [last])
    (down : here.length ≤ location.length) : last ∈ parts ∧ last ≠ ".." := by
  obtain ⟨top, kept, split, above, own⟩ := foldl_follow here parts
  rcases List.eq_nil_or_concat' kept with rfl | ⟨kept, final, rfl⟩
  · have lengths := congrArg List.length (split.symm.trans led)
    have short := above.length_le
    rw [List.append_nil, List.length_append] at lengths
    simp only [List.length_singleton] at lengths
    omega
  · rw [split, ← List.append_assoc] at led
    have same : final = last := List.head_eq_of_cons_eq (List.append_inj_right' led rfl)
    exact own last (same ▸ List.mem_append_right _ List.mem_cons_self)

theorem plain_of_join (led : resolve (join path part) = location ++ [part])
    (down : (resolve path).length ≤ location.length) : Plain part := by
  unfold join at led
  have leads : part ∈ components part ∧ part ≠ ".." := by
    split at led
    · exact last_of_foldl_follow led (Nat.zero_le _)
    · rw [resolve_append] at led
      exact last_of_foldl_follow led down
  exact plain_of_component leads.1 leads.2

end

structure Grows (made : Location → Prop) (disk next : Disk) : Prop where
  accepts : next.accepts = disk.accepts
  written : next.written = disk.written
  entries : ∀ location, next.entryAt location = disk.entryAt location ∨
    made location ∧ disk.entryAt location = none ∧ next.entryAt location = some .directory

def OnTheWay (path : Path) (location : Location) : Prop := ∃ parent, parent <+: path ∧ location = resolve parent

def Ready (disk : Disk) (path : Path) : Prop := ∀ parent, parent <+: path → disk.isDirectory (resolve parent) = true

structure Writable (disk : Disk) (path : Path) : Prop where
  accepts : disk.accepts path = true
  reaches : disk.reaches path = true
  noDirectory : disk.isDirectory (resolve path) = false

section

variable {disk middle next : Disk} {made : Location → Prop} {path : Path} {name : String} {location : Location}
  {data : List UInt8}

theorem isDirectory_iff : disk.isDirectory location = true ↔ disk.entryAt location = some .directory :=
  decide_eq_true_iff

theorem isDirectory_false : disk.isDirectory location = false ↔ disk.entryAt location ≠ some .directory :=
  decide_eq_false_iff_not

theorem fileAt_eq_some : disk.fileAt location = some data ↔ disk.entryAt location = some (.file data) := by
  unfold Disk.fileAt
  split
  · next same => rw [same, Option.some_inj, Option.some_inj, Entry.file.injEq]
  · next other =>
    refine ⟨fun found => (nomatch found), fun found => ?_⟩
    exact absurd found (other data)

theorem entryAt_insert {entry : Entry} {written : List Location} (below : location ≠ []) (other : Location) :
    Disk.entryAt { accepts := disk.accepts, entries := disk.entries.insert location entry, written } other =
      if other = location then some entry else disk.entryAt other := by
  unfold Disk.entryAt
  by_cases root : other = []
  · rw [if_pos root, if_pos root, if_neg (root ▸ below.symm)]
  · rw [if_neg root, if_neg root]
    exact lookup_insert_eq disk.entries location other entry

theorem below_of_free (free : disk.entryAt location = none) : location ≠ [] := by
  rintro rfl
  cases free

theorem below_of_not_directory (noDirectory : disk.isDirectory location = false) : location ≠ [] := by
  rintro rfl
  exact isDirectory_false.mp noDirectory (if_pos rfl)

theorem entryAt_store (noDirectory : disk.isDirectory location = false) (other : Location) :
    (disk.store location data).entryAt other = if other = location then some (.file data) else disk.entryAt other :=
  entryAt_insert (below_of_not_directory noDirectory) other

theorem Grows.refl (disk : Disk) : Grows made disk disk := ⟨rfl, rfl, fun _ => .inl rfl⟩

theorem Grows.trans (first : Grows made disk middle) (second : Grows made middle next) : Grows made disk next where
  accepts := second.accepts.trans first.accepts
  written := second.written.trans first.written
  entries location := by
    rcases first.entries location with same | ⟨allowed, free, created⟩
    · rcases second.entries location with same' | ⟨allowed, free, created⟩
      · exact .inl (same'.trans same)
      · exact .inr ⟨allowed, same ▸ free, created⟩
    · rcases second.entries location with same' | ⟨_, free', _⟩
      · exact .inr ⟨allowed, free, same'.trans created⟩
      · rw [created] at free'
        cases free'

theorem Grows.isDirectory (grows : Grows made disk next) (before : disk.isDirectory location = true) :
    next.isDirectory location = true := by
  rw [isDirectory_iff] at before ⊢
  rcases grows.entries location with same | ⟨_, free, _⟩
  · exact same.trans before
  · rw [before] at free
    cases free

theorem locate_ok (accepts : disk.accepts path = true) (reaches : disk.reaches path = true) :
    locate path disk = .ok (resolve path) disk := by
  unfold locate
  rw [bind_get, if_neg (by simp [accepts]), if_neg (by simp [reaches])]
  rfl

theorem locate_error (unreached : ¬ (disk.accepts path = true ∧ disk.reaches path = true)) :
    ∃ error, locate path disk = .error error disk := by
  unfold locate
  rw [bind_get]
  split
  · exact ⟨.refused, rfl⟩
  · split
    · exact ⟨.notFound, rfl⟩
    · next accepts reaches => exact absurd ⟨not_not.mp accepts, not_not.mp reaches⟩ unreached

theorem createDir_cases (path : Path) (disk : Disk) :
    (createDir path disk = .ok () disk ∧ disk.isDirectory (resolve path) = true) ∨
      (∃ error, createDir path disk = .error error disk) ∨
        disk.entryAt (resolve path) = none ∧
          createDir path disk = .ok () { disk with entries := disk.entries.insert (resolve path) .directory } := by
  unfold createDir
  by_cases reached : disk.accepts path = true ∧ disk.reaches path = true
  · rw [bind_ok (locate_ok reached.1 reached.2), bind_get]
    split
    · next directory => exact .inl ⟨rfl, directory⟩
    · split
      · exact .inr (.inl ⟨.alreadyExists, rfl⟩)
      · next free => exact .inr (.inr ⟨by simpa using free, rfl⟩)
  · obtain ⟨error, failed⟩ := locate_error reached
    exact .inr (.inl ⟨error, bind_error failed⟩)

theorem grows_createDir (path : Path) (disk : Disk) :
    Grows (· = resolve path) disk (stateAfter (createDir path) disk) := by
  unfold stateAfter
  rcases createDir_cases path disk with ⟨run, _⟩ | ⟨error, run⟩ | ⟨free, run⟩
  · rw [run]
    exact .refl disk
  · rw [run]
    exact .refl disk
  · rw [run]
    refine ⟨rfl, rfl, fun location => ?_⟩
    show Disk.entryAt _ location = _ ∨ _ ∧ _ ∧ Disk.entryAt _ location = _
    rw [entryAt_insert (below_of_free free)]
    by_cases same : location = resolve path
    · rw [if_pos same, same]
      exact .inr ⟨rfl, free, rfl⟩
    · rw [if_neg same]
      exact .inl rfl

theorem Grows.mono {other : Location → Prop} (grows : Grows made disk next)
    (wider : ∀ location, made location → other location) : Grows other disk next where
  accepts := grows.accepts
  written := grows.written
  entries location := (grows.entries location).imp_right fun ⟨allowed, rest⟩ => ⟨wider location allowed, rest⟩

theorem grows_createDirAll (path : Path) (disk : Disk) :
    Grows (OnTheWay path) disk (stateAfter (createDirAll path) disk) := by
  show Grows _ disk (stateAfter (if ¬ disk.accepts path then throw .refused else path.inits.forM createDir) disk)
  have each (parent : Path) (member : parent ∈ path.inits) (current : Disk) :
      Grows (OnTheWay path) current (stateAfter (createDir parent) current) :=
    (grows_createDir parent current).mono fun _ same => ⟨parent, (List.mem_inits parent path).mp member, same⟩
  split
  · exact .refl disk
  · exact related_forM (Grows (OnTheWay path)) Grows.trans Grows.refl each

theorem isDirectory_of_createDirs {paths : List Path} (made : paths.forM createDir disk = .ok () next) :
    Grows (fun _ => True) disk next ∧ ∀ parent ∈ paths, next.isDirectory (resolve parent) = true := by
  induction paths generalizing disk with
  | nil =>
    cases made
    exact ⟨.refl _, fun _ member => (nomatch member)⟩
  | cons first paths ih =>
    rcases createDir_cases first disk with ⟨here, directory⟩ | ⟨error, here⟩ | ⟨free, here⟩
    · rw [forM_ok here] at made
      obtain ⟨grows, rest⟩ := ih made
      refine ⟨grows, fun other member => ?_⟩
      rcases List.mem_cons.mp member with rfl | later
      · exact grows.isDirectory directory
      · exact rest other later
    · rw [forM_error here] at made
      cases made
    · have step := grows_createDir first disk
      unfold stateAfter at step
      rw [here] at step
      rw [forM_ok here] at made
      obtain ⟨grows, rest⟩ := ih made
      refine ⟨(step.mono fun _ _ => trivial).trans grows, fun other member => ?_⟩
      rcases List.mem_cons.mp member with rfl | later
      · refine grows.isDirectory (isDirectory_iff.mpr ?_)
        rw [entryAt_insert (below_of_free free), if_pos rfl]
      · exact rest other later

theorem ready_createDirAll (made : createDirAll path disk = .ok () next) : Ready next path := by
  unfold createDirAll at made
  rw [bind_get] at made
  split at made
  · cases made
  · intro parent part
    exact (isDirectory_of_createDirs made).2 parent ((List.mem_inits parent path).mpr part)

theorem reaches_of_ready (ready : Ready disk path) : disk.reaches (path ++ [name]) = true := by
  unfold Disk.reaches
  rw [List.all_eq_true]
  intro parent member
  rw [Bool.or_eq_true, decide_eq_true_iff]
  rcases List.prefix_concat_iff.mp ((List.mem_inits _ _).mp member) with same | part
  · exact .inl same
  · exact .inr (ready parent part)

theorem write_of_writable (writable : Writable disk path) :
    write path data disk = .ok () (disk.store (resolve path) data) := by
  unfold write
  rw [bind_ok (locate_ok writable.accepts writable.reaches), bind_get, if_neg (by simp [writable.noDirectory])]
  rfl

theorem write_of_not_writable (notWritable : ¬ Writable disk path) :
    ∃ error, write path data disk = .error error disk := by
  unfold write
  by_cases reached : disk.accepts path = true ∧ disk.reaches path = true
  · have directory : disk.isDirectory (resolve path) = true := by
      by_contra noDirectory
      exact notWritable ⟨reached.1, reached.2, by simpa using noDirectory⟩
    rw [bind_ok (locate_ok reached.1 reached.2), bind_get, if_pos directory]
    exact ⟨.isADirectory, rfl⟩
  · obtain ⟨error, failed⟩ := locate_error reached
    exact ⟨error, bind_error failed⟩

theorem pathExists_iff : disk.pathExists path = true ↔
    disk.accepts path = true ∧ disk.reaches path = true ∧ ∃ entry, disk.entryAt (resolve path) = some entry := by
  unfold Disk.pathExists
  rw [Bool.and_eq_true, Bool.and_eq_true, Option.isSome_iff_exists, and_assoc]

theorem read_file (accepts : disk.accepts path = true) (reaches : disk.reaches path = true)
    (stored : disk.fileAt (resolve path) = some data) : read path disk = .ok data disk := by
  have noDirectory : ¬ disk.isDirectory (resolve path) = true := by
    rw [isDirectory_iff, fileAt_eq_some.mp stored]
    exact fun same => (nomatch same)
  unfold read
  rw [bind_ok (locate_ok accepts reaches), bind_get, if_neg noDirectory, stored]
  rfl

theorem read_missing (missing : disk.fileAt (resolve path) = none) : ∃ error, read path disk = .error error disk := by
  unfold read
  by_cases reached : disk.accepts path = true ∧ disk.reaches path = true
  · rw [bind_ok (locate_ok reached.1 reached.2), bind_get, missing]
    split
    · exact ⟨.isADirectory, rfl⟩
    · exact ⟨.notFound, rfl⟩
  · obtain ⟨error, failed⟩ := locate_error reached
    exact ⟨error, bind_error failed⟩

theorem read_cases (path : Path) (disk : Disk) :
    (∃ data, read path disk = .ok data disk) ∨ ∃ error, read path disk = .error error disk := by
  cases stored : disk.fileAt (resolve path) with
  | none => exact .inr (read_missing stored)
  | some data =>
    by_cases reached : disk.accepts path = true ∧ disk.reaches path = true
    · exact .inl ⟨data, read_file reached.1 reached.2 stored⟩
    · obtain ⟨error, failed⟩ := locate_error reached
      exact .inr ⟨error, bind_error failed⟩

structure Keeps (disk next : Disk) : Prop where
  accepts : next.accepts = disk.accepts
  directories : ∀ location, disk.isDirectory location = true → next.isDirectory location = true
  written : disk.written <+: next.written

theorem Keeps.refl (disk : Disk) : Keeps disk disk := ⟨rfl, fun _ before => before, List.prefix_rfl⟩

theorem Keeps.trans (first : Keeps disk middle) (second : Keeps middle next) : Keeps disk next where
  accepts := second.accepts.trans first.accepts
  directories location before := second.directories location (first.directories location before)
  written := first.written.trans second.written

theorem Grows.keeps (grows : Grows made disk next) : Keeps disk next where
  accepts := grows.accepts
  directories _ := grows.isDirectory
  written := grows.written ▸ List.prefix_rfl

theorem Keeps.ready (keeps : Keeps disk next) (ready : Ready disk path) : Ready next path :=
  fun parent part => keeps.directories _ (ready parent part)

theorem keeps_store (noDirectory : disk.isDirectory location = false) : Keeps disk (disk.store location data) where
  accepts := rfl
  directories other before := by
    rw [isDirectory_iff] at before ⊢
    rw [entryAt_store noDirectory, if_neg]
    · exact before
    · rintro rfl
      exact isDirectory_false.mp noDirectory before
  written := List.prefix_append _ _

theorem keeps_write (path : Path) (data : List UInt8) (disk : Disk) :
    Keeps disk (stateAfter (write path data) disk) := by
  unfold stateAfter
  by_cases writable : Writable disk path
  · rw [write_of_writable writable]
    exact keeps_store writable.noDirectory
  · obtain ⟨error, failed⟩ := write_of_not_writable writable
    rw [failed]
    exact .refl disk

theorem append_file {old : List UInt8} (opened : disk.fileAt location = some old) :
    ∃ next, append location data disk = .ok () next ∧ Keeps disk next ∧ next.written = disk.written ∧
      ∀ other, next.entryAt other = if other = location then some (.file (old ++ data)) else disk.entryAt other := by
  have stored := fileAt_eq_some.mp opened
  have below : location ≠ [] := by
    rintro rfl
    cases stored
  have entries (other : Location) : Disk.entryAt ⟨disk.accepts,
      disk.entries.insert location (.file ((disk.fileAt location).getD [] ++ data)), disk.written⟩ other =
        if other = location then some (.file (old ++ data)) else disk.entryAt other := by
    rw [entryAt_insert below, opened]
    rfl
  refine ⟨_, rfl, ⟨rfl, fun other before => ?_, List.prefix_rfl⟩, rfl, entries⟩
  rw [isDirectory_iff] at before ⊢
  rw [entries, if_neg]
  · exact before
  · rintro rfl
    rw [stored] at before
    cases before

end

end FileSystem
