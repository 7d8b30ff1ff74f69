import AdicCore.Network.UpdateProtocol

open AdicModel AdicModel.Economics AdicModel.Network AdicModel.Network.UpdateProtocol Calls FileSystem HashMap

namespace AdicProof.Network

section

variable {baseDir : Path} {version : String}

theorem toList_chunkName (index : Nat) : (chunkName index).toList =
    "chunk_".toList ++ List.leftpad 4 '0' (Nat.toDigits 10 index) ++ ".bin".toList := by
  unfold chunkName
  simp only [String.toList_append, String.toList_ofList]

theorem digits_noSlash (index : Nat) : '/' ∉ List.leftpad 4 '0' (Nat.toDigits 10 index) := by
  unfold List.leftpad
  intro member
  rcases List.mem_append.mp member with padding | digit
  · exact absurd (List.eq_of_mem_replicate padding) (by decide)
  · exact absurd (Nat.isDigit_of_mem_toDigits (by decide) (by decide) digit) (by decide)

theorem plain_of_letters {text : String} {first second third : Char} {rest : List Char}
    (letters : text.toList = first :: second :: third :: rest) (noSlash : '/' ∉ text.toList) : Plain text := by
  have differs (short : String) (length : short.toList.length < 3) : text ≠ short := by
    rintro rfl
    rw [letters] at length
    simp only [List.length_cons] at length
    omega
  exact ⟨noSlash, differs "" (by decide), differs "." (by decide), differs ".." (by decide)⟩

theorem plain_chunkName (index : Nat) : Plain (chunkName index) := by
  refine plain_of_letters (toList_chunkName index) ?_
  rw [toList_chunkName]
  intro member
  rcases List.mem_append.mp member with member | ending
  · rcases List.mem_append.mp member with start | digit
    · exact absurd start (by decide)
    · exact digits_noSlash index digit
  · exact absurd ending (by decide)

theorem plain_bin (plain : Plain version) : Plain (version ++ ".bin") := by
  cases letters : version.toList with
  | nil => exact absurd (String.toList_eq_nil_iff.mp letters) plain.nonempty
  | cons first rest =>
    have all : (version ++ ".bin").toList = first :: (rest ++ ".bin".toList) := by
      rw [String.toList_append, letters, List.cons_append]
    have noSlash : '/' ∉ (version ++ ".bin").toList := by
      rw [String.toList_append]
      intro member
      rcases List.mem_append.mp member with inside | ending
      · exact plain.noSlash inside
      · exact absurd ending (by decide)
    cases rest with
    | nil => exact plain_of_letters all noSlash
    | cons second rest =>
      cases rest with
      | nil => exact plain_of_letters all noSlash
      | cons third rest => exact plain_of_letters all noSlash

theorem join_chunks (baseDir : Path) : join baseDir "chunks" = baseDir ++ ["chunks"] := join_plain (by decide)

theorem join_binaries (baseDir : Path) : join baseDir "binaries" = baseDir ++ ["binaries"] := join_plain (by decide)

theorem chunkPath_eq (baseDir : Path) (version : String) (index : Nat) :
    chunkPath baseDir version index = chunksDir baseDir version ++ [chunkName index] :=
  join_plain (plain_chunkName index)

theorem resolve_chunkPath (baseDir : Path) (version : String) (index : Nat) :
    resolve (chunkPath baseDir version index) = resolve (chunksDir baseDir version) ++ [chunkName index] := by
  rw [chunkPath_eq, resolve_concat (plain_chunkName index).notParent]

theorem chunksDir_eq (plain : Plain version) : chunksDir baseDir version = join baseDir "chunks" ++ [version] :=
  join_plain plain

theorem resolve_chunksDir (plain : Plain version) :
    resolve (chunksDir baseDir version) = resolve baseDir ++ ["chunks", version] := by
  rw [chunksDir_eq plain, resolve_concat plain.notParent, join_chunks, resolve_concat (by decide), List.append_assoc]
  rfl

theorem outputPath_eq (plain : Plain version) : outputPath baseDir version =
    join baseDir "binaries" ++ [version ++ ".bin"] := join_plain (plain_bin plain)

theorem resolve_outputPath (plain : Plain version) :
    resolve (outputPath baseDir version) = resolve baseDir ++ ["binaries", version ++ ".bin"] := by
  rw [outputPath_eq plain, resolve_concat (plain_bin plain).notParent, join_binaries, resolve_concat (by decide),
    List.append_assoc]
  rfl

def InPlace (baseDir : Path) (version : String) (location : Location) : Prop :=
  (∃ index, location = resolve baseDir ++ ["chunks", version, chunkName index]) ∨
    location = resolve baseDir ++ ["binaries", version ++ ".bin"]

theorem inPlace_chunk (plain : Plain version) (index : Nat) :
    InPlace baseDir version (resolve (chunkPath baseDir version index)) := by
  left
  refine ⟨index, ?_⟩
  rw [resolve_chunkPath, resolve_chunksDir plain, List.append_assoc]
  rfl

theorem inPlace_output (plain : Plain version) : InPlace baseDir version (resolve (outputPath baseDir version)) :=
  .inr (resolve_outputPath plain)

theorem plain_of_inPlace {index : Nat} (inPlace : InPlace baseDir version (resolve (chunkPath baseDir version index))) :
    Plain version := by
  unfold InPlace at inPlace
  rw [resolve_chunkPath] at inPlace
  rcases inPlace with ⟨other, same⟩ | same
  · have split : resolve baseDir ++ ["chunks", version, chunkName other] =
        (resolve (join baseDir "chunks") ++ [version]) ++ [chunkName other] := by
      rw [join_chunks, resolve_concat (by decide)]
      simp
    rw [split] at same
    exact plain_of_join (List.append_inj_left' same rfl) le_rfl
  · have split : resolve baseDir ++ ["binaries", version ++ ".bin"] =
        (resolve baseDir ++ ["binaries"]) ++ [version ++ ".bin"] := by simp
    rw [split] at same
    have name : chunkName index = version ++ ".bin" := List.head_eq_of_cons_eq (List.append_inj_right' same rfl)
    have letters := congrArg String.toList name
    rw [toList_chunkName, String.toList_append] at letters
    have text : version.toList = "chunk_".toList ++ List.leftpad 4 '0' (Nat.toDigits 10 index) :=
      (List.append_inj_left' letters rfl).symm
    refine plain_of_letters text ?_
    rw [text]
    intro member
    rcases List.mem_append.mp member with start | digit
    · exact absurd start (by decide)
    · exact digits_noSlash index digit

end

section

variable {α : Type} {protocol : UpdateProtocol} {call : EStateM FileError Disk α} {value : α} {disk made next : Disk}
  {baseDir : Path} {version : String} {data old : List UInt8} {indices : List Nat}

theorem onDisk_ok (run : call protocol.disk = .ok value next) :
    onDisk call protocol = .ok value { protocol with disk := next } := by
  unfold onDisk
  rw [run]

theorem onDisk_error {error : FileError} (run : call protocol.disk = .error error next) :
    onDisk call protocol = .error (.file error) { protocol with disk := next } := by
  unfold onDisk
  rw [run]

def CanStore (disk : Disk) (baseDir : Path) (version : String) (index : Nat) : Prop :=
  ∃ made, createDirAll (chunksDir baseDir version) disk = .ok () made ∧ Writable made (chunkPath baseDir version index)

theorem storeChunk_ok {chunkIndex : UInt32}
    (created : createDirAll (chunksDir protocol.baseDir version) protocol.disk = .ok () made)
    (writable : Writable made (chunkPath protocol.baseDir version chunkIndex.toNat)) :
    storeChunk version chunkIndex data protocol = .ok () { protocol with
      disk := made.store (resolve (chunkPath protocol.baseDir version chunkIndex.toNat)) data
      chunkCache := protocol.chunkCache.insert (version, chunkIndex) data } := by
  unfold storeChunk
  rw [bind_get, bind_ok (onDisk_ok created), bind_ok (onDisk_ok (write_of_writable writable))]
  rfl

theorem storeChunk_error {chunkIndex : UInt32}
    (cannot : ¬ CanStore protocol.disk protocol.baseDir version chunkIndex.toNat) :
    ∃ error disk, storeChunk version chunkIndex data protocol = .error error { protocol with disk } ∧
      Keeps protocol.disk disk ∧ disk.written = protocol.disk.written := by
  have grows := grows_createDirAll (chunksDir protocol.baseDir version) protocol.disk
  unfold stateAfter at grows
  unfold storeChunk
  rw [bind_get]
  cases created : createDirAll (chunksDir protocol.baseDir version) protocol.disk with
  | error error made =>
    rw [created] at grows
    rw [bind_error (onDisk_error created)]
    exact ⟨_, made, rfl, grows.keeps, grows.written⟩
  | ok value made =>
    rw [created] at grows
    rw [bind_ok (onDisk_ok created)]
    have notWritable : ¬ Writable made (chunkPath protocol.baseDir version chunkIndex.toNat) := fun writable =>
      cannot ⟨made, created, writable⟩
    obtain ⟨error, failed⟩ := @write_of_not_writable _ _ data notWritable
    have written : onDisk (write (chunkPath protocol.baseDir version chunkIndex.toNat) data)
        { protocol with disk := made } = .error (.file error) { protocol with disk := made } := onDisk_error failed
    rw [bind_error written]
    exact ⟨_, made, rfl, grows.keeps, grows.written⟩

theorem entryAt_createDirAll (ready : Ready disk (join baseDir "chunks")) (plain : Plain version)
    (created : createDirAll (chunksDir baseDir version) disk = .ok () made) {location : Location}
    (other : location ≠ resolve (chunksDir baseDir version)) : made.entryAt location = disk.entryAt location := by
  have grows := grows_createDirAll (chunksDir baseDir version) disk
  unfold stateAfter at grows
  rw [created] at grows
  rcases grows.entries location with same | ⟨⟨parent, part, rfl⟩, free, _⟩
  · exact same
  · rw [chunksDir_eq plain] at part
    rcases List.prefix_concat_iff.mp part with rfl | part
    · rw [chunksDir_eq plain] at other
      exact absurd rfl other
    · rw [isDirectory_iff.mp (ready parent part)] at free
      cases free

theorem accepts_of_createDirAll {path : Path} (created : createDirAll path disk = .ok () made) :
    disk.accepts path = true := by
  by_contra refused
  unfold createDirAll at created
  rw [bind_get, if_pos refused] at created
  cases created

def chunkFiles (disk : Disk) (baseDir : Path) (version : String) (indices : List Nat) : Option (List (List UInt8)) :=
  indices.mapM fun index => disk.fileAt (resolve (chunkPath baseDir version index))

theorem chunkFiles_nil (disk : Disk) : chunkFiles disk baseDir version [] = some [] := by
  unfold chunkFiles
  rw [List.mapM_nil]
  rfl

theorem chunkFiles_cons (index : Nat) : chunkFiles disk baseDir version (index :: indices) =
    (disk.fileAt (resolve (chunkPath baseDir version index))).bind fun first =>
      (chunkFiles disk baseDir version indices).map (first :: ·) := by
  unfold chunkFiles
  rw [List.mapM_cons]
  cases disk.fileAt (resolve (chunkPath baseDir version index)) with
  | none => rfl
  | some first =>
    cases indices.mapM fun index => disk.fileAt (resolve (chunkPath baseDir version index)) with
    | none => rfl
    | some rest => rfl

theorem chunkFiles_congr (same : ∀ index ∈ indices, next.fileAt (resolve (chunkPath baseDir version index)) =
    disk.fileAt (resolve (chunkPath baseDir version index))) :
    chunkFiles next baseDir version indices = chunkFiles disk baseDir version indices := by
  induction indices with
  | nil => exact (chunkFiles_nil next).trans (chunkFiles_nil disk).symm
  | cons index indices ih =>
    rw [chunkFiles_cons, chunkFiles_cons, same index List.mem_cons_self,
      ih fun other member => same other (List.mem_cons_of_mem index member)]

theorem fileAt_congr {location : Location} (same : next.entryAt location = disk.entryAt location) :
    next.fileAt location = disk.fileAt location := by
  unfold Disk.fileAt
  rw [same]

structure Assembling (disk : Disk) (baseDir : Path) (version : String) (indices : List Nat) (old : List UInt8) :
    Prop where
  opened : disk.fileAt (resolve (outputPath baseDir version)) = some old
  ready : Ready disk (chunksDir baseDir version)
  accepts : ∀ index ∈ indices, disk.accepts (chunkPath baseDir version index) = true
  apart : ∀ index, resolve (chunkPath baseDir version index) ≠ resolve (outputPath baseDir version)

theorem reaches_chunkPath (ready : Ready disk (chunksDir baseDir version)) (index : Nat) :
    disk.reaches (chunkPath baseDir version index) = true := by
  rw [chunkPath_eq]
  exact reaches_of_ready ready

theorem appendChunk_ok {index : Nat} (assembling : Assembling disk baseDir version (index :: indices) old)
    (stored : disk.fileAt (resolve (chunkPath baseDir version index)) = some data) :
    ∃ next, appendChunk baseDir version index disk = .ok () next ∧ Keeps disk next ∧ next.written = disk.written ∧
      Assembling next baseDir version indices (old ++ data) ∧
        chunkFiles next baseDir version indices = chunkFiles disk baseDir version indices := by
  obtain ⟨next, appended, keeps, written, entries⟩ := @append_file _ _ data _ assembling.opened
  have returned : read (chunkPath baseDir version index) disk = .ok data disk :=
    read_file (assembling.accepts index List.mem_cons_self) (reaches_chunkPath assembling.ready index) stored
  refine ⟨next, ?_, keeps, written, ⟨?_, keeps.ready assembling.ready, fun other member => ?_, assembling.apart⟩, ?_⟩
  · unfold appendChunk
    rw [bind_ok returned]
    exact appended
  · rw [fileAt_eq_some, entries, if_pos rfl]
  · rw [keeps.accepts]
    exact assembling.accepts other (List.mem_cons_of_mem index member)
  · refine chunkFiles_congr fun other _ => fileAt_congr ?_
    rw [entries, if_neg (assembling.apart other)]

theorem appendChunks_ok {contents : List (List UInt8)} (assembling : Assembling disk baseDir version indices old)
    (stored : chunkFiles disk baseDir version indices = some contents) :
    ∃ next, indices.forM (appendChunk baseDir version) disk = .ok () next ∧ Keeps disk next ∧
      next.written = disk.written ∧
        next.fileAt (resolve (outputPath baseDir version)) = some (old ++ contents.flatten) := by
  induction indices generalizing disk old contents with
  | nil =>
    rw [chunkFiles_nil] at stored
    cases stored
    exact ⟨disk, rfl, .refl disk, rfl, by simpa using assembling.opened⟩
  | cons index indices ih =>
    rw [chunkFiles_cons] at stored
    obtain ⟨first, here, stored⟩ := Option.bind_eq_some_iff.mp stored
    obtain ⟨rest, later, rfl⟩ := Option.map_eq_some_iff.mp stored
    obtain ⟨middle, appended, keeps, written, assembling, same⟩ := appendChunk_ok assembling here
    rw [← same] at later
    obtain ⟨next, run, keeps', written', output⟩ := ih assembling later
    refine ⟨next, ?_, keeps.trans keeps', written'.trans written, ?_⟩
    · rw [forM_ok appended]
      exact run
    · rw [output, List.append_assoc, List.flatten_cons]

theorem appendChunks_error (assembling : Assembling disk baseDir version indices old)
    (missing : chunkFiles disk baseDir version indices = none) :
    ∃ error next, indices.forM (appendChunk baseDir version) disk = .error error next ∧ Keeps disk next ∧
      next.written = disk.written := by
  induction indices generalizing disk old with
  | nil =>
    rw [chunkFiles_nil] at missing
    cases missing
  | cons index indices ih =>
    cases here : disk.fileAt (resolve (chunkPath baseDir version index)) with
    | none =>
      obtain ⟨error, failed⟩ := read_missing here
      have stops : appendChunk baseDir version index disk = .error error disk := bind_error failed
      rw [forM_error stops]
      exact ⟨error, disk, rfl, .refl disk, rfl⟩
    | some first =>
      rw [chunkFiles_cons, here] at missing
      have later : chunkFiles disk baseDir version indices = none := Option.map_eq_none_iff.mp missing
      obtain ⟨middle, appended, keeps, written, assembling, same⟩ := appendChunk_ok assembling here
      rw [← same] at later
      obtain ⟨error, next, run, keeps', written'⟩ := ih assembling later
      rw [forM_ok appended]
      exact ⟨error, next, run, keeps.trans keeps', written'.trans written⟩

theorem fileAt_of_chunkFiles {contents : List (List UInt8)}
    (stored : chunkFiles disk baseDir version indices = some contents)
    {index : Nat} (member : index ∈ indices) :
    ∃ data, disk.fileAt (resolve (chunkPath baseDir version index)) = some data := by
  induction indices generalizing contents with
  | nil => cases member
  | cons first indices ih =>
    rw [chunkFiles_cons] at stored
    obtain ⟨data, here, stored⟩ := Option.bind_eq_some_iff.mp stored
    obtain ⟨rest, later, _⟩ := Option.map_eq_some_iff.mp stored
    rcases List.mem_cons.mp member with rfl | member
    · exact ⟨data, here⟩
    · exact ih later member

structure Prepared (protocol : UpdateProtocol) (version : String) : Prop where
  plain : Plain version
  accepts : protocol.disk.accepts (chunksDir protocol.baseDir version) = true
  chunks : Ready protocol.disk (chunksDir protocol.baseDir version)
  binaries : Ready protocol.disk (join protocol.baseDir "binaries")

theorem chunk_apart (plain : Plain version) (index : Nat) :
    resolve (chunkPath baseDir version index) ≠ resolve (outputPath baseDir version) := by
  rw [resolve_chunkPath, resolve_chunksDir plain, resolve_outputPath plain]
  intro same
  have lengths := congrArg List.length same
  simp at lengths

section

variable {totalChunks : UInt32} {contents : List (List UInt8)}

structure Complete (protocol : UpdateProtocol) (version : String) (totalChunks : UInt32)
    (contents : List (List UInt8)) : Prop where
  accepts : ∀ index < totalChunks.toNat, protocol.disk.accepts (chunkPath protocol.baseDir version index) = true
  stored : chunkFiles protocol.disk protocol.baseDir version (List.range totalChunks.toNat) = some contents

theorem Complete.hasCompleteBinary (complete : Complete protocol version totalChunks contents)
    (prepared : Prepared protocol version) : protocol.hasCompleteBinary version totalChunks = true := by
  unfold UpdateProtocol.hasCompleteBinary
  rw [Bool.and_eq_true, List.all_eq_true]
  constructor
  · refine pathExists_iff.mpr ⟨prepared.accepts, ?_, .directory, ?_⟩
    · rw [chunksDir_eq prepared.plain]
      refine reaches_of_ready fun parent part => prepared.chunks parent ?_
      rw [chunksDir_eq prepared.plain]
      exact part.trans (List.prefix_append _ _)
    · exact isDirectory_iff.mp (prepared.chunks _ List.prefix_rfl)
  · intro index member
    obtain ⟨data, stored⟩ := fileAt_of_chunkFiles complete.stored member
    exact pathExists_iff.mpr ⟨complete.accepts index (List.mem_range.mp member),
      reaches_chunkPath prepared.chunks index, .file data, fileAt_eq_some.mp stored⟩

theorem assembling_opened (prepared : Prepared protocol version)
    (writable : Writable protocol.disk (outputPath protocol.baseDir version))
    (accepts : ∀ index < totalChunks.toNat, protocol.disk.accepts (chunkPath protocol.baseDir version index) = true) :
    let opened := protocol.disk.store (resolve (outputPath protocol.baseDir version)) []
    Assembling opened protocol.baseDir version (List.range totalChunks.toNat) [] ∧
      chunkFiles opened protocol.baseDir version (List.range totalChunks.toNat) =
        chunkFiles protocol.disk protocol.baseDir version (List.range totalChunks.toNat) := by
  have entries := @entryAt_store _ _ [] writable.noDirectory
  refine ⟨⟨?_, (keeps_store writable.noDirectory).ready prepared.chunks, ?_, chunk_apart prepared.plain⟩, ?_⟩
  · rw [fileAt_eq_some, entries, if_pos rfl]
  · intro index member
    exact accepts index (List.mem_range.mp member)
  · refine chunkFiles_congr fun index _ => fileAt_congr ?_
    rw [entries, if_neg (chunk_apart prepared.plain index)]

theorem check_complete (prepared : Prepared protocol version)
    (complete : Complete protocol version totalChunks contents)
    (writable : Writable protocol.disk (outputPath protocol.baseDir version)) :
    ∃ disk, checkDownloadComplete version totalChunks protocol = .ok () { protocol with
        disk := disk
        events := protocol.events ++ [.binaryDownloadCompleted version contents.flatten] } ∧
      Keeps protocol.disk disk ∧
        disk.written = protocol.disk.written ++ [resolve (outputPath protocol.baseDir version)] := by
  have has := complete.hasCompleteBinary prepared
  obtain ⟨assembling, same⟩ := assembling_opened prepared writable complete.accepts
  obtain ⟨last, run, keeps, written, output⟩ := appendChunks_ok assembling (same.trans complete.stored)
  have opened : onDisk (create (outputPath protocol.baseDir version)) protocol = .ok () _ :=
    onDisk_ok (write_of_writable writable)
  have keeps := (keeps_store writable.noDirectory).trans keeps
  have returned : read (outputPath protocol.baseDir version) last = .ok contents.flatten last := by
    refine read_file ?_ ?_ output
    · rw [keeps.accepts]
      exact writable.accepts
    · rw [outputPath_eq prepared.plain]
      exact reaches_of_ready (keeps.ready prepared.binaries)
  refine ⟨last, ?_, keeps, written⟩
  have assembled : assembleBinary version totalChunks protocol =
      .ok (outputPath protocol.baseDir version) { protocol with disk := last } := by
    unfold assembleBinary
    rw [bind_get, if_neg (by simp [has]), bind_ok opened]
    have looped : onDisk ((List.range totalChunks.toNat).forM (appendChunk protocol.baseDir version)) { protocol with
        disk := protocol.disk.store (resolve (outputPath protocol.baseDir version)) [] } =
          .ok () { protocol with disk := last } := onDisk_ok run
    rw [bind_ok looped]
    rfl
  unfold checkDownloadComplete
  rw [bind_get, if_pos has, bind_ok assembled]
  have readBack : onDisk (read (outputPath protocol.baseDir version)) { protocol with disk := last } =
      .ok contents.flatten { protocol with disk := last } := onDisk_ok returned
  rw [bind_ok readBack]
  rfl

theorem check_incomplete (prepared : Prepared protocol version)
    (incomplete : ∀ contents, Complete protocol version totalChunks contents →
      ¬ Writable protocol.disk (outputPath protocol.baseDir version)) :
    ∃ disk, stateAfter (checkDownloadComplete version totalChunks) protocol = { protocol with disk } ∧
      Keeps protocol.disk disk ∧ (disk.written = protocol.disk.written ∨
        disk.written = protocol.disk.written ++ [resolve (outputPath protocol.baseDir version)]) := by
  unfold stateAfter
  by_cases has : protocol.hasCompleteBinary version totalChunks = true
  · have failed {error : UpdateError} {last : UpdateProtocol}
        (assembled : assembleBinary version totalChunks protocol = .error error last) :
        checkDownloadComplete version totalChunks protocol = .error error last := by
      unfold checkDownloadComplete
      rw [bind_get, if_pos has]
      exact bind_error assembled
    have accepts : ∀ index < totalChunks.toNat,
        protocol.disk.accepts (chunkPath protocol.baseDir version index) = true := by
      have listed := has
      unfold UpdateProtocol.hasCompleteBinary at listed
      rw [Bool.and_eq_true, List.all_eq_true] at listed
      intro index below
      exact (pathExists_iff.mp (listed.2 index (List.mem_range.mpr below))).1
    by_cases writable : Writable protocol.disk (outputPath protocol.baseDir version)
    · have missing : chunkFiles protocol.disk protocol.baseDir version (List.range totalChunks.toNat) = none := by
        rw [Option.eq_none_iff_forall_ne_some]
        intro contents stored
        exact incomplete contents ⟨accepts, stored⟩ writable
      obtain ⟨assembling, same⟩ := assembling_opened prepared writable accepts
      obtain ⟨error, last, run, keeps, written⟩ := appendChunks_error assembling (same.trans missing)
      have opened : onDisk (create (outputPath protocol.baseDir version)) protocol = .ok () _ :=
        onDisk_ok (write_of_writable writable)
      have assembled : assembleBinary version totalChunks protocol =
          .error (.file error) { protocol with disk := last } := by
        unfold assembleBinary
        rw [bind_get, if_neg (by simp [has]), bind_ok opened]
        exact bind_error (onDisk_error run)
      rw [failed assembled]
      exact ⟨last, rfl, (keeps_store writable.noDirectory).trans keeps, .inr written⟩
    · obtain ⟨error, refused⟩ := @write_of_not_writable _ _ [] writable
      have assembled : assembleBinary version totalChunks protocol = .error (.file error) protocol := by
        unfold assembleBinary
        rw [bind_get, if_neg (by simp [has])]
        exact bind_error (onDisk_error refused)
      rw [failed assembled]
      exact ⟨protocol.disk, rfl, .refl _, .inl rfl⟩
  · have unchanged : checkDownloadComplete version totalChunks protocol = .ok () protocol := by
      unfold checkDownloadComplete
      rw [bind_get, if_neg has]
      rfl
    rw [unchanged]
    exact ⟨protocol.disk, rfl, .refl _, .inl rfl⟩

end

end

end AdicProof.Network
