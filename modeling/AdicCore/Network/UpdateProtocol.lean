import AdicCore.Economics.Types
import AdicCore.Library.FileSystem

open AdicModel.Economics FileSystem HashMap

namespace AdicModel.Network

structure PeerId where
  bytes : List UInt8
deriving DecidableEq

structure VersionInfo where
  version : String
  binaryHash : String
  signature : List UInt8
  sizeBytes : UInt64
  chunkCount : UInt32
  releaseTimestamp : Int64
  totalChunks : UInt32
  timestamp : UInt64
deriving DecidableEq

/-- The metrics of a swarm are left out. -/
inductive UpdateMessage where
  | versionAnnounce (version binaryHash : String) (signature : List UInt8) (totalChunks : UInt32)
  | binaryRequest (version : String) (chunkIndex : UInt32)
  | binaryChunk (version : String) (chunkIndex totalChunks : UInt32) (data : List UInt8) (chunkHash : String)
  | updateComplete (version peerId : String) (success : Bool) (errorMessage : Option String)
  | versionQuery
  | versionResponse (currentVersion : String) (availableVersions : List VersionInfo)
  | swarmMetrics

inductive UpdateProtocolEvent where
  | versionDiscovered (peer : PeerId) (info : VersionInfo)
  | chunkDownloadCompleted (version : String) (chunkIndex : UInt32) (size : Nat)
  | chunkDownloadFailed (version : String) (chunkIndex : UInt32) (reason : String)
  | binaryDownloadCompleted (version : String) (binary : List UInt8)
deriving DecidableEq

/-- The metadata of a version that an answer reads. -/
structure BinaryMetadata where
  version : String
  binaryHash : String
  totalChunks : UInt32
  totalSize : UInt64

inductive UpdateError where
  | file (error : FileError)
  | message (text : String)

/-- The protocol with its store. Copies in memory, transfers and speeds are left out. -/
structure UpdateProtocol where
  baseDir : Path
  disk : Disk
  chunkCache : Table (String × UInt32) (List UInt8)
  versionMetadata : Table String BinaryMetadata
  peerVersions : Table PeerId (List VersionInfo)
  versionPeers : Table String (List PeerId)
  events : List UpdateProtocolEvent

namespace UpdateProtocol

/-- A store is set up. What it finds of earlier binaries is given. -/
def new (baseDir : Path) (versionMetadata : Table String BinaryMetadata) : EStateM FileError Disk UpdateProtocol := do
  createDirAll (join baseDir "binaries")
  createDirAll (join baseDir "chunks")
  return ⟨baseDir, ← get, ∅, versionMetadata, ∅, ∅, []⟩

abbrev Call := EStateM UpdateError UpdateProtocol

def onDisk {α : Type} (call : EStateM FileError Disk α) : Call α := fun protocol =>
  match call protocol.disk with
  | .ok value disk => .ok value { protocol with disk }
  | .error error disk => .error (.file error) { protocol with disk }

def send (event : UpdateProtocolEvent) : Call Unit :=
  modify fun protocol => { protocol with events := protocol.events ++ [event] }

/-- The index is padded to four digits. -/
def chunkName (index : Nat) : String :=
  "chunk_" ++ String.ofList (List.leftpad 4 '0' (Nat.toDigits 10 index)) ++ ".bin"

def chunksDir (baseDir : Path) (version : String) : Path := join (join baseDir "chunks") version

def chunkPath (baseDir : Path) (version : String) (index : Nat) : Path :=
  join (chunksDir baseDir version) (chunkName index)

def outputPath (baseDir : Path) (version : String) : Path := join (join baseDir "binaries") (version ++ ".bin")

section

variable (sha256 : List UInt8 → Bytes32)

def hashText (data : List UInt8) : String := hexEncode (sha256 data).bytes

def getChunk (version : String) (chunkIndex : UInt32) : Call (List UInt8) := do
  let protocol ← get
  match protocol.chunkCache.lookup (version, chunkIndex) with
  | some cached => return cached
  | none =>
    let path := chunkPath protocol.baseDir version chunkIndex.toNat
    if ¬ protocol.disk.pathExists path then throw (.message s!"Chunk not found: {version}/{chunkIndex}")
    else
      let data ← onDisk (read path)
      modify fun protocol => { protocol with chunkCache := protocol.chunkCache.insert (version, chunkIndex) data }
      return data

def storeChunk (version : String) (chunkIndex : UInt32) (data : List UInt8) : Call Unit := do
  let protocol ← get
  onDisk (createDirAll (chunksDir protocol.baseDir version))
  onDisk (write (chunkPath protocol.baseDir version chunkIndex.toNat) data)
  modify fun protocol => { protocol with chunkCache := protocol.chunkCache.insert (version, chunkIndex) data }

def hasCompleteBinary (protocol : UpdateProtocol) (version : String) (totalChunks : UInt32) : Bool :=
  protocol.disk.pathExists (chunksDir protocol.baseDir version) &&
    (List.range totalChunks.toNat).all fun index =>
      protocol.disk.pathExists (chunkPath protocol.baseDir version index)

def appendChunk (baseDir : Path) (version : String) (index : Nat) : EStateM FileError Disk Unit := do
  let data ← read (chunkPath baseDir version index)
  append (resolve (outputPath baseDir version)) data

def assembleBinary (version : String) (totalChunks : UInt32) : Call Path := do
  let protocol ← get
  if ¬ protocol.hasCompleteBinary version totalChunks then
    throw (.message s!"Not all chunks available for version {version}")
  else
    onDisk (create (outputPath protocol.baseDir version))
    onDisk ((List.range totalChunks.toNat).forM (appendChunk protocol.baseDir version))
    return outputPath protocol.baseDir version

def getLocalVersions (order : Order) (now : Int64) (protocol : UpdateProtocol) : List VersionInfo :=
  (order.iterate protocol.versionMetadata.keys).filterMap fun version =>
    (protocol.versionMetadata.lookup version).map fun metadata =>
      { version := metadata.version, binaryHash := metadata.binaryHash, signature := []
        sizeBytes := metadata.totalSize, chunkCount := metadata.totalChunks, releaseTimestamp := now
        totalChunks := metadata.totalChunks, timestamp := now.toUInt64 }

def getCurrentVersion : String := "0.3.0"

def addPeer (fromPeer : PeerId) (version : String) (versionPeers : Table String (List PeerId)) :
    Table String (List PeerId) :=
  versionPeers.insert version ((versionPeers.lookup version).getD [] |>.insert fromPeer)

def handleVersionAnnounce (now : Int64) (fromPeer : PeerId) (version binaryHash : String) (signature : List UInt8)
    (totalChunks : UInt32) : Call Unit := do
  let info : VersionInfo := ⟨version, binaryHash, signature, 0, totalChunks, now, totalChunks, now.toUInt64⟩
  modify fun protocol => { protocol with
    peerVersions := protocol.peerVersions.insert fromPeer ((protocol.peerVersions.lookup fromPeer).getD [] ++ [info])
    versionPeers := addPeer fromPeer version protocol.versionPeers }
  send (.versionDiscovered fromPeer info)

def handleVersionResponse (fromPeer : PeerId) (availableVersions : List VersionInfo) : Call Unit := do
  modify fun protocol => { protocol with peerVersions := protocol.peerVersions.insert fromPeer availableVersions }
  availableVersions.forM fun info => do
    modify fun protocol => { protocol with versionPeers := addPeer fromPeer info.version protocol.versionPeers }
    send (.versionDiscovered fromPeer info)

def checkDownloadComplete (version : String) (totalChunks : UInt32) : Call Unit := do
  if (← get).hasCompleteBinary version totalChunks then
    let path ← assembleBinary version totalChunks
    let binary ← onDisk (read path)
    send (.binaryDownloadCompleted version binary)

def handleBinaryChunk (version : String) (chunkIndex totalChunks : UInt32) (data : List UInt8) (chunkHash : String) :
    Call Unit := do
  if hashText sha256 data ≠ chunkHash then
    send (.chunkDownloadFailed version chunkIndex "Hash mismatch")
    throw (.message "Chunk hash verification failed")
  else
    storeChunk version chunkIndex data
    send (.chunkDownloadCompleted version chunkIndex data.length)
    checkDownloadComplete version totalChunks

def getChunkForUpload (version : String) (chunkIndex : UInt32) : Call UpdateMessage := do
  let data ← getChunk version chunkIndex
  match (← get).versionMetadata.lookup version with
  | none => throw (.message s!"Version {version} not found in store")
  | some metadata => return .binaryChunk version chunkIndex metadata.totalChunks data (hashText sha256 data)

def handleMessage (order : Order) (now : Int64) (fromPeer : PeerId) : UpdateMessage → Call (Option UpdateMessage)
  | .versionAnnounce version binaryHash signature totalChunks => do
    handleVersionAnnounce now fromPeer version binaryHash signature totalChunks
    return none
  | .versionQuery => do
    return some (.versionResponse getCurrentVersion ((← get).getLocalVersions order now))
  | .versionResponse _ availableVersions => do
    handleVersionResponse fromPeer availableVersions
    return none
  | .binaryRequest version chunkIndex => some <$> getChunkForUpload sha256 version chunkIndex
  | .binaryChunk version chunkIndex totalChunks data chunkHash => do
    handleBinaryChunk sha256 version chunkIndex totalChunks data chunkHash
    return none
  | .updateComplete .. => return none
  | .swarmMetrics => return none

end

end UpdateProtocol

/-- A message with its peer and the time. -/
structure ReceivedMessage where
  fromPeer : PeerId
  now : Int64
  message : UpdateMessage

def UpdateProtocol.receive (sha256 : List UInt8 → Bytes32) (order : Order) (protocol : UpdateProtocol)
    (received : ReceivedMessage) : UpdateProtocol :=
  Calls.stateAfter (handleMessage sha256 order received.now received.fromPeer received.message) protocol

end AdicModel.Network
