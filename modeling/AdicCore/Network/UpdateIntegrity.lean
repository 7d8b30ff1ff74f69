import AdicCore.Library.Runs
import AdicCore.Network.UpdateSteps

open AdicModel AdicModel.Economics AdicModel.Network AdicModel.Network.UpdateProtocol Calls FileSystem HashMap

namespace AdicProof.Network

def Announces : UpdateMessage → String → String → Prop
  | .versionAnnounce version binaryHash _ _, announced, hash => version = announced ∧ binaryHash = hash
  | .versionResponse _ versions, announced, hash => ∃ info ∈ versions, info.version = announced ∧ info.binaryHash = hash
  | _, _, _ => False

def Announced (messages : List ReceivedMessage) (version hash : String) : Prop :=
  ∃ received ∈ messages, Announces received.message version hash

section

variable (sha256 : List UInt8 → Bytes32) (earlier : List ReceivedMessage) (received : ReceivedMessage)
  (protocol next : UpdateProtocol)

/-- A message completes announced binaries only, and writes in the place of its own version. -/
structure Intact : Prop where
  completed : ∀ version binary, .binaryDownloadCompleted version binary ∈ next.events.drop protocol.events.length →
    Announced earlier version (hashText sha256 binary)
  written : ∀ location ∈ next.disk.written.drop protocol.disk.written.length,
    ∃ version, chunkVersion received.message = some version ∧ InPlace protocol.baseDir version location

def heldChunks (version : String) (chunkIndex totalChunks : UInt32) (data : List UInt8) : Option (List (List UInt8)) :=
  (List.range totalChunks.toNat).mapM fun index =>
    if chunkName index = chunkName chunkIndex.toNat then some data
    else protocol.disk.fileAt (resolve (chunkPath protocol.baseDir version index))

structure Completes (version : String) (chunkIndex totalChunks : UInt32) (data : List UInt8)
    (contents : List (List UInt8)) : Prop where
  accepts : ∀ index < totalChunks.toNat, protocol.disk.accepts (chunkPath protocol.baseDir version index) = true
  stored : heldChunks protocol version chunkIndex totalChunks data = some contents
  writable : Writable protocol.disk (outputPath protocol.baseDir version)

/-- A chunk names a version by one component, and completes no other binary than an announced one. -/
def Proper : UpdateMessage → Prop
  | .binaryChunk version chunkIndex totalChunks data chunkHash =>
    hashText sha256 data = chunkHash → CanStore protocol.disk protocol.baseDir version chunkIndex.toNat →
      Plain version ∧ ∀ contents, Completes protocol version chunkIndex totalChunks data contents →
        Announced earlier version (hashText sha256 contents.flatten)
  | _ => True

end

section

variable {sha256 : List UInt8 → Bytes32} {earlier : List ReceivedMessage} {received : ReceivedMessage}
  {protocol next : UpdateProtocol} {order : Order} {version chunkHash : String} {chunkIndex totalChunks : UInt32}
  {data : List UInt8} {contents : List (List UInt8)}

theorem complete_withChunk_iff {made : Disk} (setUp : SetUp protocol) (plain : Plain version)
    (created : createDirAll (chunksDir protocol.baseDir version) protocol.disk = .ok () made)
    (writable : Writable made (chunkPath protocol.baseDir version chunkIndex.toNat)) :
    Completes protocol version chunkIndex totalChunks data contents ↔
      Complete (withChunk protocol made version chunkIndex data) version totalChunks contents ∧
        Writable (withChunk protocol made version chunkIndex data).disk (outputPath protocol.baseDir version) := by
  have keeps := @keeps_withChunk protocol version chunkIndex data made created writable
  have files : chunkFiles (withChunk protocol made version chunkIndex data).disk protocol.baseDir version
      (List.range totalChunks.toNat) = heldChunks protocol version chunkIndex totalChunks data := by
    unfold chunkFiles heldChunks
    congr 1
    funext index
    exact fileAt_withChunk setUp plain created writable index
  have outputs := @writable_output_withChunk protocol version chunkIndex data made setUp plain created writable
  constructor
  · rintro ⟨accepts, stored, output⟩
    refine ⟨⟨fun index below => ?_, files.trans stored⟩, outputs.mpr output⟩
    rw [keeps.accepts]
    exact accepts index below
  · rintro ⟨⟨accepts, stored⟩, output⟩
    refine ⟨fun index below => ?_, files.symm.trans stored, outputs.mp output⟩
    rw [← keeps.accepts]
    exact accepts index below

theorem intact_of_quiet (quiet : Quiet protocol next) : Intact sha256 earlier received protocol next := by
  obtain ⟨added, appended, none⟩ := quiet.events
  refine ⟨fun version binary member => ?_, fun location member => ?_⟩
  · rw [appended, List.drop_left] at member
    exact absurd member (none version binary)
  · rw [quiet.disk, List.drop_length] at member
    cases member

theorem intact_stored_iff {made : Disk} (setUp : SetUp protocol)
    (message : received.message = .binaryChunk version chunkIndex totalChunks data chunkHash)
    (created : createDirAll (chunksDir protocol.baseDir version) protocol.disk = .ok () made)
    (writable : Writable made (chunkPath protocol.baseDir version chunkIndex.toNat)) :
    Intact sha256 earlier received protocol
      (stateAfter (checkDownloadComplete version totalChunks) (withChunk protocol made version chunkIndex data)) ↔
        Plain version ∧ ∀ contents, Completes protocol version chunkIndex totalChunks data contents →
          Announced earlier version (hashText sha256 contents.flatten) := by
  have grows := grows_createDirAll (chunksDir protocol.baseDir version) protocol.disk
  unfold stateAfter at grows
  rw [created] at grows
  have written : (withChunk protocol made version chunkIndex data).disk.written =
      protocol.disk.written ++ [resolve (chunkPath protocol.baseDir version chunkIndex.toNat)] := by
    show made.written ++ _ = _
    rw [grows.written]
  by_cases plain : Plain version
  · have prepared := @prepared_withChunk protocol version chunkIndex data made setUp plain created writable
    have own {location : Location} (member : location ∈ [resolve (chunkPath protocol.baseDir version chunkIndex.toNat),
        resolve (outputPath protocol.baseDir version)]) :
        ∃ version, chunkVersion received.message = some version ∧ InPlace protocol.baseDir version location := by
      refine ⟨version, by rw [message]; rfl, ?_⟩
      rcases List.mem_pair.mp member with rfl | rfl
      · exact inPlace_chunk plain chunkIndex.toNat
      · exact inPlace_output plain
    by_cases completes : ∃ contents, Completes protocol version chunkIndex totalChunks data contents
    · obtain ⟨contents, completes⟩ := completes
      obtain ⟨complete, output⟩ := (complete_withChunk_iff setUp plain created writable).mp completes
      obtain ⟨disk, checked, _, more⟩ := check_complete prepared complete output
      rw [written, List.append_assoc] at more
      have unique (other : List (List UInt8))
          (also : Completes protocol version chunkIndex totalChunks data other) : other = contents :=
        Option.some_inj.mp (also.stored.symm.trans completes.stored)
      unfold stateAfter
      rw [checked]
      constructor
      · intro intact
        refine ⟨plain, fun other also => ?_⟩
        rw [unique other also]
        refine intact.completed version contents.flatten ?_
        show _ ∈ ((protocol.events ++ [_]) ++ [_]).drop protocol.events.length
        rw [List.append_assoc, List.drop_left]
        exact List.mem_cons_of_mem _ List.mem_cons_self
      · rintro ⟨_, announced⟩
        refine ⟨fun other binary member => ?_, fun location member => ?_⟩
        · replace member : _ ∈ ((protocol.events ++ [_]) ++ [_]).drop protocol.events.length := member
          rw [List.append_assoc, List.drop_left] at member
          rcases List.mem_pair.mp member with same | same
          · cases same
          · cases same
            exact announced contents completes
        · replace member : location ∈ disk.written.drop protocol.disk.written.length := member
          rw [more, List.drop_left] at member
          exact own member
    · have incomplete (contents : List (List UInt8))
          (complete : Complete (withChunk protocol made version chunkIndex data) version totalChunks contents) :
          ¬ Writable (withChunk protocol made version chunkIndex data).disk (outputPath protocol.baseDir version) :=
        fun output => completes ⟨contents, (complete_withChunk_iff setUp plain created writable).mpr ⟨complete, output⟩⟩
      obtain ⟨disk, checked, _, more⟩ := check_incomplete prepared incomplete
      rw [written, List.append_assoc] at more
      rw [checked]
      refine ⟨fun _ => ⟨plain, fun contents also => absurd ⟨contents, also⟩ completes⟩, fun _ => ?_⟩
      refine ⟨fun other binary member => ?_, fun location member => ?_⟩
      · replace member : _ ∈ (protocol.events ++ [_]).drop protocol.events.length := member
        rw [List.drop_left] at member
        cases List.mem_singleton.mp member
      · replace member : location ∈ disk.written.drop protocol.disk.written.length := member
        rcases more with more | more
        · rw [more, List.drop_left] at member
          exact own (List.mem_cons.mpr (.inl (List.mem_singleton.mp member)))
        · rw [more, List.drop_left] at member
          exact own member
  · refine ⟨fun intact => ?_, fun ⟨isPlain, _⟩ => absurd isPlain plain⟩
    have more := (extends_check version totalChunks (withChunk protocol made version chunkIndex data)).disk.written
    rw [written] at more
    obtain ⟨rest, split⟩ := more
    obtain ⟨own, same, inPlace⟩ := intact.written (resolve (chunkPath protocol.baseDir version chunkIndex.toNat)) (by
      rw [← split, List.append_assoc, List.drop_left]
      exact List.mem_cons_self)
    rw [message] at same
    cases same
    exact absurd (plain_of_inPlace inPlace) plain

theorem intact_receive_iff (setUp : SetUp protocol) :
    Intact sha256 earlier received protocol (protocol.receive sha256 order received) ↔
      Proper sha256 earlier protocol received.message := by
  cases message : received.message with
  | binaryChunk version chunkIndex totalChunks data chunkHash =>
    have same : protocol.receive sha256 order received =
        stateAfter (handleBinaryChunk sha256 version chunkIndex totalChunks data chunkHash) protocol := by
      unfold receive
      rw [message]
      show stateAfter (handleBinaryChunk sha256 version chunkIndex totalChunks data chunkHash >>= fun _ => pure none)
        protocol = _
      unfold stateAfter
      cases run : handleBinaryChunk sha256 version chunkIndex totalChunks data chunkHash protocol with
      | ok value next => rw [bind_ok run]; rfl
      | error error next => rw [bind_error run]
    rw [same]
    by_cases right : hashText sha256 data = chunkHash
    · by_cases can : CanStore protocol.disk protocol.baseDir version chunkIndex.toNat
      · obtain ⟨made, created, writable⟩ := can
        rw [handleBinaryChunk_stored right created writable, intact_stored_iff setUp message created writable]
        exact ⟨fun proper _ _ => proper, fun proper => proper right ⟨made, created, writable⟩⟩
      · obtain ⟨disk, left, _, written⟩ := @handleBinaryChunk_refused _ _ _ _ _ totalChunks _ right can
        rw [left]
        refine ⟨fun _ _ stored => absurd stored can, fun _ => ?_⟩
        refine ⟨fun other binary member => ?_, fun location member => ?_⟩
        · rw [List.drop_length] at member
          cases member
        · replace member : location ∈ disk.written.drop protocol.disk.written.length := member
          rw [written, List.drop_length] at member
          cases member
    · exact ⟨fun _ isRight => absurd isRight right, fun _ => intact_of_quiet (quiet_handleBinaryChunk right protocol)⟩
  | _ =>
    refine ⟨fun _ => trivial, fun _ => intact_of_quiet (quiet_handleMessage order _ _ ?_ protocol)⟩
    rw [message]
    rfl

theorem new_ok {baseDir : Path} {versionMetadata : Table String BinaryMetadata} {disk middle last : Disk}
    (binaries : createDirAll (join baseDir "binaries") disk = .ok () middle)
    (chunks : createDirAll (join baseDir "chunks") middle = .ok () last) :
    UpdateProtocol.new baseDir versionMetadata disk = .ok ⟨baseDir, last, ∅, versionMetadata, ∅, ∅, []⟩ last := by
  unfold UpdateProtocol.new
  rw [bind_ok binaries, bind_ok chunks]
  rfl

theorem setUp_new {baseDir : Path} {versionMetadata : Table String BinaryMetadata} {disk left : Disk}
    (started : UpdateProtocol.new baseDir versionMetadata disk = .ok protocol left) :
    protocol.baseDir = baseDir ∧ SetUp protocol := by
  unfold UpdateProtocol.new at started
  cases binaries : createDirAll (join baseDir "binaries") disk with
  | error error next =>
    rw [bind_error binaries] at started
    cases started
  | ok value middle =>
    rw [bind_ok binaries] at started
    cases chunks : createDirAll (join baseDir "chunks") middle with
    | error error next =>
      rw [bind_error chunks] at started
      cases started
    | ok value last =>
      rw [bind_ok chunks] at started
      cases started
      have grows := grows_createDirAll (join baseDir "chunks") middle
      unfold stateAfter at grows
      rw [chunks] at grows
      exact ⟨rfl, ready_createDirAll chunks, grows.keeps.ready (ready_createDirAll binaries)⟩

theorem extends_after (messages : List ReceivedMessage) :
    Extends protocol (Runs.after (receive sha256 order) protocol messages) := by
  refine Runs.invariant_of_kept (Extends.refl protocol) (fun current received extended => ?_) messages
  exact extended.trans (extends_handleMessage order received.now received.fromPeer received.message current)

end

section

variable (sha256 : List UInt8 → Bytes32) (order : Order) (start : UpdateProtocol) (messages : List ReceivedMessage)

def IntactRun : Prop := ∀ before received, before ++ [received] <+: messages →
  Intact sha256 before received (Runs.after (receive sha256 order) start before)
    (Runs.after (receive sha256 order) start (before ++ [received]))

def ProperRun : Prop := ∀ before received, before ++ [received] <+: messages →
  Proper sha256 before (Runs.after (receive sha256 order) start before) received.message

end

theorem update_intact_iff (sha256 : List UInt8 → Bytes32) (order : Order) (baseDir : Path)
    (versionMetadata : Table String BinaryMetadata) (disk left : Disk) (start : UpdateProtocol)
    (started : UpdateProtocol.new baseDir versionMetadata disk = .ok start left) (messages : List ReceivedMessage) :
    IntactRun sha256 order start messages ↔ ProperRun sha256 order start messages := by
  obtain ⟨_, setUp⟩ := setUp_new started
  constructor
  · intro all before received part
    have intact := all before received part
    rw [Runs.after_snoc] at intact
    exact (intact_receive_iff ((extends_after before).setUp setUp)).mp intact
  · intro all before received part
    rw [Runs.after_snoc]
    exact (intact_receive_iff ((extends_after before).setUp setUp)).mpr (all before received part)

def sampleHash (data : List UInt8) : Bytes32 :=
  ⟨(data ++ List.replicate 32 0).take 32, by
    rw [List.length_take, List.length_append, List.length_replicate]
    omega⟩

def sampleDisk : Disk := ⟨fun _ => true, ∅, []⟩

def sampleBinaries : Disk := stateAfter (createDirAll (join ["store"] "binaries")) sampleDisk

def sampleChunks : Disk := stateAfter (createDirAll (join ["store"] "chunks")) sampleBinaries

def sampleStart : UpdateProtocol := ⟨["store"], sampleChunks, ∅, ∅, ∅, ∅, []⟩

theorem run_of_returns {call : EStateM FileError Disk Unit} {disk : Disk}
    (returns : (match call disk with | .ok _ _ => true | .error _ _ => false) = true) :
    call disk = .ok () (stateAfter call disk) := by
  unfold stateAfter
  cases run : call disk with
  | ok value next => rfl
  | error error next =>
    rw [run] at returns
    cases returns

theorem started_sample : UpdateProtocol.new ["store"] ∅ sampleDisk = .ok sampleStart sampleChunks := by
  have binaries : createDirAll (join ["store"] "binaries") sampleDisk = .ok () sampleBinaries := by
    unfold sampleBinaries
    exact run_of_returns (by decide +kernel)
  have chunks : createDirAll (join ["store"] "chunks") sampleBinaries = .ok () sampleChunks := by
    unfold sampleChunks
    exact run_of_returns (by decide +kernel)
  exact new_ok binaries chunks

def samplePeer : PeerId := ⟨[1]⟩

def announcement : ReceivedMessage :=
  ⟨samplePeer, 0, .versionAnnounce "1.0" (hashText sampleHash [7, 8]) [] 2⟩

def chunk (version : String) (chunkIndex totalChunks : UInt32) (data : List UInt8) : ReceivedMessage :=
  ⟨samplePeer, 0, .binaryChunk version chunkIndex totalChunks data (hashText sampleHash data)⟩

/-- An announced binary in two chunks. -/
theorem update_intact_two : IntactRun sampleHash .stored sampleStart
    [announcement, chunk "1.0" 0 2 [7], chunk "1.0" 1 2 [8]] := by
  refine (update_intact_iff sampleHash .stored ["store"] ∅ sampleDisk sampleChunks sampleStart started_sample _).mpr ?_
  have announced (rest : List ReceivedMessage) : Announced (announcement :: rest) "1.0" (hashText sampleHash [7, 8]) :=
    ⟨announcement, List.mem_cons_self, rfl, rfl⟩
  unfold ProperRun
  rw [Runs.forall_steps_cons, Runs.forall_steps_cons, Runs.forall_steps_cons]
  refine ⟨trivial, fun _ _ => ⟨by decide, fun contents completes => ?_⟩,
    fun _ _ => ⟨by decide, fun contents completes => ?_⟩, Runs.forall_steps_nil⟩
  · have missing : heldChunks (Runs.after (receive sampleHash .stored) sampleStart [announcement]) "1.0" 0 2 [7] =
        none := by
      decide +kernel
    cases missing.symm.trans completes.stored
  · have both : heldChunks (Runs.after (receive sampleHash .stored) sampleStart [announcement, chunk "1.0" 0 2 [7]])
        "1.0" 1 2 [8] = some [[7], [8]] := by
      decide +kernel
    cases both.symm.trans completes.stored
    exact announced _

/-- A chunk of another binary completes the version, and a chunk of an absolute version is outside of the store. -/
theorem update_corrupted : ¬ IntactRun sampleHash .stored sampleStart [announcement, chunk "1.0" 0 1 [9]] ∧
    ¬ IntactRun sampleHash .stored sampleStart [chunk "/etc" 0 2 [9]] := by
  constructor
  · intro intact
    have last := intact [announcement] (chunk "1.0" 0 1 [9]) List.prefix_rfl
    obtain ⟨received, member, same⟩ := last.completed "1.0" [9] (by decide +kernel)
    rw [List.mem_singleton.mp member] at same
    exact absurd same.2 (by decide +kernel)
  · intro intact
    have first := intact [] (chunk "/etc" 0 2 [9]) List.prefix_rfl
    obtain ⟨version, _, place⟩ := first.written ["etc", "chunk_0000.bin"] (by decide +kernel)
    have base : resolve ["store"] = ["store"] := by decide
    rcases place with ⟨index, same⟩ | same
    · have lengths := congrArg List.length (same.trans (congrArg (· ++ _) base))
      cases lengths
    · have lengths := congrArg List.length (same.trans (congrArg (· ++ _) base))
      cases lengths

end AdicProof.Network
