import AdicCore.Network.UpdateDownload

open AdicModel AdicModel.Economics AdicModel.Network AdicModel.Network.UpdateProtocol Calls FileSystem HashMap

namespace AdicProof.Network

structure Extends (protocol next : UpdateProtocol) : Prop where
  baseDir : next.baseDir = protocol.baseDir
  disk : Keeps protocol.disk next.disk

structure Quiet (protocol next : UpdateProtocol) : Prop where
  baseDir : next.baseDir = protocol.baseDir
  disk : next.disk = protocol.disk
  events : ∃ added, next.events = protocol.events ++ added ∧
    ∀ version binary, .binaryDownloadCompleted version binary ∉ added

section

variable {α : Type} {sha256 : List UInt8 → Bytes32} {protocol middle next : UpdateProtocol} {version chunkHash : String}
  {chunkIndex totalChunks : UInt32} {data : List UInt8} {indices : List Nat} {disk : Disk} {baseDir : Path}

theorem Extends.refl (protocol : UpdateProtocol) : Extends protocol protocol := ⟨rfl, .refl _⟩

theorem Extends.trans (first : Extends protocol middle) (second : Extends middle next) : Extends protocol next :=
  ⟨second.baseDir.trans first.baseDir, first.disk.trans second.disk⟩

theorem Quiet.refl (protocol : UpdateProtocol) : Quiet protocol protocol :=
  ⟨rfl, rfl, [], (List.append_nil _).symm, fun _ _ => List.not_mem_nil⟩

theorem Quiet.trans (first : Quiet protocol middle) (second : Quiet middle next) : Quiet protocol next where
  baseDir := second.baseDir.trans first.baseDir
  disk := second.disk.trans first.disk
  events := by
    obtain ⟨added, appended, none⟩ := first.events
    obtain ⟨added', appended', none'⟩ := second.events
    refine ⟨added ++ added', by rw [appended', appended, List.append_assoc], fun version binary member => ?_⟩
    rcases List.mem_append.mp member with member | member
    · exact none version binary member
    · exact none' version binary member

theorem Quiet.extends (quiet : Quiet protocol next) : Extends protocol next :=
  ⟨quiet.baseDir, quiet.disk ▸ .refl _⟩

theorem quiet_send {event : UpdateProtocolEvent}
    (other : ∀ version binary, event ≠ .binaryDownloadCompleted version binary)
    (protocol : UpdateProtocol) : Quiet protocol (stateAfter (send event) protocol) :=
  ⟨rfl, rfl, [event], rfl, fun version binary member => other version binary (List.mem_singleton.mp member).symm⟩

theorem extends_onDisk {call : EStateM FileError Disk α} (keeps : Keeps protocol.disk (stateAfter call protocol.disk)) :
    Extends protocol (stateAfter (onDisk call) protocol) := by
  unfold stateAfter at keeps ⊢
  cases run : call protocol.disk with
  | ok value disk =>
    rw [run] at keeps
    rw [onDisk_ok run]
    exact ⟨rfl, keeps⟩
  | error error disk =>
    rw [run] at keeps
    rw [onDisk_error run]
    exact ⟨rfl, keeps⟩

theorem quiet_read (path : Path) (protocol : UpdateProtocol) :
    Quiet protocol (stateAfter (onDisk (read path)) protocol) := by
  unfold stateAfter
  rcases read_cases path protocol.disk with ⟨data, run⟩ | ⟨error, run⟩
  · rw [onDisk_ok run]
    exact .refl protocol
  · rw [onDisk_error run]
    exact .refl protocol

def StaysOpen (location : Location) (disk next : Disk) : Prop :=
  ∀ old, disk.fileAt location = some old → Keeps disk next ∧ ∃ new, next.fileAt location = some new

theorem staysOpen_trans {location : Location} {first second third : Disk} (left : StaysOpen location first second)
    (right : StaysOpen location second third) : StaysOpen location first third := by
  intro old opened
  obtain ⟨keeps, new, opened⟩ := left old opened
  obtain ⟨keeps', opened⟩ := right new opened
  exact ⟨keeps.trans keeps', opened⟩

theorem staysOpen_appendChunk (index : Nat) (disk : Disk) :
    StaysOpen (resolve (outputPath baseDir version)) disk (stateAfter (appendChunk baseDir version index) disk) := by
  intro old opened
  unfold appendChunk stateAfter
  rcases read_cases (chunkPath baseDir version index) disk with ⟨data, run⟩ | ⟨error, run⟩
  · obtain ⟨next, appended, keeps, _, entries⟩ := @append_file _ _ data _ opened
    rw [bind_ok run, appended]
    exact ⟨keeps, _, fileAt_eq_some.mpr ((entries _).trans (if_pos rfl))⟩
  · rw [bind_error run]
    exact ⟨.refl disk, old, opened⟩

theorem keeps_appendChunks {old : List UInt8} (opened : disk.fileAt (resolve (outputPath baseDir version)) = some old) :
    Keeps disk (stateAfter (indices.forM (appendChunk baseDir version)) disk) :=
  (related_forM (StaysOpen (resolve (outputPath baseDir version))) staysOpen_trans
    (fun current old opened => ⟨.refl current, old, opened⟩) (fun index _ current => staysOpen_appendChunk index current)
      old opened).1

theorem extends_assembleBinary (version : String) (totalChunks : UInt32) (protocol : UpdateProtocol) :
    Extends protocol (stateAfter (assembleBinary version totalChunks) protocol) := by
  by_cases has : protocol.hasCompleteBinary version totalChunks = true
  · have opened : assembleBinary version totalChunks protocol =
        (do
          onDisk (create (outputPath protocol.baseDir version))
          onDisk ((List.range totalChunks.toNat).forM (appendChunk protocol.baseDir version))
          return outputPath protocol.baseDir version : Call Path) protocol := by
      unfold assembleBinary
      rw [bind_get, if_neg (by simp [has])]
    unfold stateAfter
    rw [opened]
    refine related_bind Extends Extends.trans (extends_onDisk (keeps_write _ [] _)) fun value next created => ?_
    refine related_bind Extends Extends.trans (extends_onDisk ?_) fun _ last _ => .refl last
    unfold create at created
    by_cases writable : Writable protocol.disk (outputPath protocol.baseDir version)
    · rw [onDisk_ok (write_of_writable writable)] at created
      cases created
      refine @keeps_appendChunks _ _ _ _ [] ?_
      exact fileAt_eq_some.mpr ((entryAt_store writable.noDirectory _).trans (if_pos rfl))
    · obtain ⟨error, failed⟩ := @write_of_not_writable _ _ [] writable
      rw [onDisk_error failed] at created
      cases created
  · have failed : ∃ error, assembleBinary version totalChunks protocol = .error error protocol := by
      unfold assembleBinary
      rw [bind_get, if_pos has]
      exact ⟨_, rfl⟩
    obtain ⟨error, failed⟩ := failed
    unfold stateAfter
    rw [failed]
    exact .refl protocol

theorem extends_check (version : String) (totalChunks : UInt32) (protocol : UpdateProtocol) :
    Extends protocol (stateAfter (checkDownloadComplete version totalChunks) protocol) := by
  show Extends protocol (stateAfter (if protocol.hasCompleteBinary version totalChunks then do
    let path ← assembleBinary version totalChunks
    let binary ← onDisk (read path)
    send (.binaryDownloadCompleted version binary) else return ()) protocol)
  split
  · have assembled := extends_assembleBinary version totalChunks protocol
    refine related_bind Extends Extends.trans assembled fun path next _ => ?_
    refine related_bind Extends Extends.trans (quiet_read path next).extends fun binary last _ => ?_
    exact ⟨rfl, .refl _⟩
  · exact .refl protocol

theorem quiet_getChunk (version : String) (chunkIndex : UInt32) (protocol : UpdateProtocol) :
    Quiet protocol (stateAfter (getChunk version chunkIndex) protocol) := by
  unfold stateAfter getChunk
  rw [bind_get]
  cases protocol.chunkCache.lookup (version, chunkIndex) with
  | some cached => exact .refl protocol
  | none =>
    show Quiet protocol (stateAfter (if ¬ protocol.disk.pathExists
      (chunkPath protocol.baseDir version chunkIndex.toNat) then _ else _) protocol)
    split
    · exact .refl protocol
    · exact related_bind Quiet Quiet.trans (quiet_read _ protocol) fun data next _ =>
        ⟨rfl, rfl, [], (List.append_nil _).symm, fun _ _ => List.not_mem_nil⟩

def chunkVersion : UpdateMessage → Option String
  | .binaryChunk version _ _ _ _ => some version
  | _ => none

theorem quiet_handleMessage (order : Order) (now : Int64) (fromPeer : PeerId) {message : UpdateMessage}
    (noChunk : chunkVersion message = none) (protocol : UpdateProtocol) :
    Quiet protocol (stateAfter (handleMessage sha256 order now fromPeer message) protocol) := by
  have discovered (info : VersionInfo) (current : UpdateProtocol) :
      Quiet current (stateAfter (send (.versionDiscovered fromPeer info)) current) := by
    refine quiet_send ?_ current
    intro version binary same
    cases same
  have unsent {current next : UpdateProtocol} (baseDir : next.baseDir = current.baseDir)
      (disk : next.disk = current.disk) (events : next.events = current.events) : Quiet current next :=
    ⟨baseDir, disk, [], events.trans (List.append_nil _).symm, fun _ _ => List.not_mem_nil⟩
  cases message with
  | versionAnnounce version binaryHash signature totalChunks =>
    refine related_bind Quiet Quiet.trans ?_ fun _ next _ => .refl next
    exact related_bind Quiet Quiet.trans (unsent rfl rfl rfl) fun _ next _ => discovered _ next
  | versionQuery => exact .refl protocol
  | versionResponse currentVersion availableVersions =>
    refine related_bind Quiet Quiet.trans ?_ fun _ next _ => .refl next
    refine related_bind Quiet Quiet.trans (unsent rfl rfl rfl) fun _ next _ => ?_
    refine related_forM Quiet Quiet.trans Quiet.refl fun info _ current => ?_
    exact related_bind Quiet Quiet.trans (unsent rfl rfl rfl) fun _ next _ => discovered info next
  | binaryRequest version chunkIndex =>
    refine related_bind Quiet Quiet.trans ?_ fun _ next _ => .refl next
    refine related_bind Quiet Quiet.trans (quiet_getChunk version chunkIndex protocol) fun data next _ => ?_
    show Quiet next (stateAfter _ next)
    unfold stateAfter
    rw [bind_get]
    cases next.versionMetadata.lookup version with
    | none => exact .refl next
    | some metadata => exact .refl next
  | binaryChunk version chunkIndex totalChunks data chunkHash => cases noChunk
  | updateComplete version peerId success errorMessage => exact .refl protocol
  | swarmMetrics => exact .refl protocol

theorem quiet_handleBinaryChunk (wrong : hashText sha256 data ≠ chunkHash) (protocol : UpdateProtocol) :
    Quiet protocol (stateAfter (handleBinaryChunk sha256 version chunkIndex totalChunks data chunkHash) protocol) := by
  unfold handleBinaryChunk
  rw [if_pos wrong]
  refine related_bind Quiet Quiet.trans (quiet_send ?_ protocol) fun _ next _ => .refl next
  intro version binary same
  cases same

def withChunk (protocol : UpdateProtocol) (made : Disk) (version : String) (chunkIndex : UInt32) (data : List UInt8) :
    UpdateProtocol :=
  { protocol with
    disk := made.store (resolve (chunkPath protocol.baseDir version chunkIndex.toNat)) data
    chunkCache := protocol.chunkCache.insert (version, chunkIndex) data
    events := protocol.events ++ [.chunkDownloadCompleted version chunkIndex data.length] }

section

variable {made : Disk} (right : hashText sha256 data = chunkHash)

include right

theorem handleBinaryChunk_stored
    (created : createDirAll (chunksDir protocol.baseDir version) protocol.disk = .ok () made)
    (writable : Writable made (chunkPath protocol.baseDir version chunkIndex.toNat)) :
    stateAfter (handleBinaryChunk sha256 version chunkIndex totalChunks data chunkHash) protocol =
      stateAfter (checkDownloadComplete version totalChunks) (withChunk protocol made version chunkIndex data) := by
  unfold stateAfter handleBinaryChunk
  rw [if_neg (not_not.mpr right), bind_ok (storeChunk_ok created writable)]
  rfl

theorem handleBinaryChunk_refused
    (cannot : ¬ CanStore protocol.disk protocol.baseDir version chunkIndex.toNat) :
    ∃ disk, stateAfter (handleBinaryChunk sha256 version chunkIndex totalChunks data chunkHash) protocol =
      { protocol with disk } ∧ Keeps protocol.disk disk ∧ disk.written = protocol.disk.written := by
  obtain ⟨error, disk, failed, keeps, written⟩ := @storeChunk_error protocol version data chunkIndex cannot
  unfold stateAfter handleBinaryChunk
  rw [if_neg (not_not.mpr right), bind_error failed]
  exact ⟨disk, rfl, keeps, written⟩

end

theorem keeps_withChunk {made : Disk}
    (created : createDirAll (chunksDir protocol.baseDir version) protocol.disk = .ok () made)
    (writable : Writable made (chunkPath protocol.baseDir version chunkIndex.toNat)) :
    Keeps protocol.disk (withChunk protocol made version chunkIndex data).disk := by
  have grows := grows_createDirAll (chunksDir protocol.baseDir version) protocol.disk
  unfold stateAfter at grows
  rw [created] at grows
  exact grows.keeps.trans (keeps_store writable.noDirectory)

theorem extends_handleMessage (order : Order) (now : Int64) (fromPeer : PeerId) (message : UpdateMessage)
    (protocol : UpdateProtocol) :
    Extends protocol (stateAfter (handleMessage sha256 order now fromPeer message) protocol) := by
  cases noChunk : chunkVersion message with
  | none => exact (quiet_handleMessage order now fromPeer noChunk protocol).extends
  | some chunk =>
    cases message with
    | binaryChunk version chunkIndex totalChunks data chunkHash =>
      refine related_bind Extends Extends.trans ?_ fun _ next _ => .refl next
      by_cases right : hashText sha256 data = chunkHash
      · by_cases can : CanStore protocol.disk protocol.baseDir version chunkIndex.toNat
        · obtain ⟨made, created, writable⟩ := can
          rw [handleBinaryChunk_stored right created writable]
          have stored : Extends protocol (withChunk protocol made version chunkIndex data) :=
            ⟨rfl, keeps_withChunk created writable⟩
          exact stored.trans (extends_check version totalChunks _)
        · obtain ⟨disk, left, keeps, _⟩ := @handleBinaryChunk_refused _ _ _ _ _ totalChunks _ right can
          rw [left]
          exact ⟨rfl, keeps⟩
      · exact (quiet_handleBinaryChunk right protocol).extends
    | _ => cases noChunk

structure SetUp (protocol : UpdateProtocol) : Prop where
  chunks : Ready protocol.disk (join protocol.baseDir "chunks")
  binaries : Ready protocol.disk (join protocol.baseDir "binaries")

theorem Extends.setUp (extends_ : Extends protocol next) (setUp : SetUp protocol) : SetUp next where
  chunks := extends_.baseDir ▸ extends_.disk.ready setUp.chunks
  binaries := extends_.baseDir ▸ extends_.disk.ready setUp.binaries

section

variable {made : Disk} (setUp : SetUp protocol) (plain : Plain version)
  (created : createDirAll (chunksDir protocol.baseDir version) protocol.disk = .ok () made)
  (writable : Writable made (chunkPath protocol.baseDir version chunkIndex.toNat))

include setUp plain created writable

theorem prepared_withChunk : Prepared (withChunk protocol made version chunkIndex data) version where
  plain := plain
  accepts := by
    rw [(keeps_withChunk created writable).accepts]
    exact accepts_of_createDirAll created
  chunks := (keeps_store writable.noDirectory).ready (ready_createDirAll created)
  binaries := (keeps_withChunk created writable).ready setUp.binaries

theorem fileAt_withChunk (index : Nat) :
    (withChunk protocol made version chunkIndex data).disk.fileAt (resolve (chunkPath protocol.baseDir version index)) =
      if chunkName index = chunkName chunkIndex.toNat then some data
      else protocol.disk.fileAt (resolve (chunkPath protocol.baseDir version index)) := by
  have entries := @entryAt_store made _ data writable.noDirectory
  by_cases same : chunkName index = chunkName chunkIndex.toNat
  · rw [if_pos same]
    refine fileAt_eq_some.mpr ((entries _).trans (if_pos ?_))
    rw [resolve_chunkPath, resolve_chunkPath, same]
  · rw [if_neg same]
    refine fileAt_congr ((entries _).trans ((if_neg ?_).trans ?_))
    · rw [resolve_chunkPath, resolve_chunkPath]
      intro equal
      exact same (List.head_eq_of_cons_eq (List.append_cancel_left equal))
    · refine entryAt_createDirAll setUp.chunks plain created ?_
      rw [resolve_chunkPath]
      exact fun equal => List.cons_ne_nil _ _ (List.append_right_eq_self.mp equal)

theorem writable_output_withChunk :
    Writable (withChunk protocol made version chunkIndex data).disk (outputPath protocol.baseDir version) ↔
      Writable protocol.disk (outputPath protocol.baseDir version) := by
  have keeps := @keeps_withChunk protocol version chunkIndex data made created writable
  have reaches {disk : Disk} (ready : Ready disk (join protocol.baseDir "binaries")) :
      disk.reaches (outputPath protocol.baseDir version) = true := by
    rw [outputPath_eq plain]
    exact reaches_of_ready ready
  have entry : (withChunk protocol made version chunkIndex data).disk.entryAt
      (resolve (outputPath protocol.baseDir version)) = protocol.disk.entryAt (resolve (outputPath protocol.baseDir version)) := by
    refine (entryAt_store writable.noDirectory _).trans ((if_neg (chunk_apart plain _).symm).trans ?_)
    refine entryAt_createDirAll setUp.chunks plain created ?_
    rw [resolve_outputPath plain, resolve_chunksDir plain]
    intro equal
    have names := List.head_eq_of_cons_eq (List.append_cancel_left equal)
    exact absurd names (by decide)
  constructor
  · rintro ⟨accepts, _, noDirectory⟩
    refine ⟨keeps.accepts ▸ accepts, reaches setUp.binaries, ?_⟩
    rw [isDirectory_false, entry] at noDirectory
    exact isDirectory_false.mpr noDirectory
  · rintro ⟨accepts, _, noDirectory⟩
    refine ⟨keeps.accepts ▸ accepts, reaches (keeps.ready setUp.binaries), ?_⟩
    rw [isDirectory_false, entry]
    exact isDirectory_false.mp noDirectory

end

end

end AdicProof.Network
