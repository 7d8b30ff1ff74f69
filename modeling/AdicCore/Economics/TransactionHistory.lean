import AdicCore.Library.OrderedScan
import AdicCore.Economics.Storage

namespace AdicModel.Economics

def DateTime.le (a b : DateTime) : Bool :=
  a.timestamp < b.timestamp || a.timestamp = b.timestamp && a.nanos ≤ b.nanos

/-- A stable sort. -/
def newestFirst (transactions : List TransactionRecord) : List TransactionRecord :=
  transactions.mergeSort fun a b => DateTime.le b.timestamp a.timestamp

def involves (address : AccountAddress) (tx : TransactionRecord) : Bool :=
  tx.sender = address || tx.recipient = address

def parseI64 (text : List Char) : Option Int :=
  let (negative, digits) := match text with
    | '-' :: rest => (true, rest)
    | '+' :: rest => (false, rest)
    | rest => (false, rest)
  if digits.isEmpty || !digits.all Char.isDigit then none
  else
    let magnitude : Int := digits.foldl (fun value digit => 10 * value + (digit.toNat - '0'.toNat : Nat)) 0
    let value := if negative then -magnitude else magnitude
    if -2 ^ 63 ≤ value ∧ value < 2 ^ 63 then some value else none

def cursorParts (cursor : String) : Option (List Char × List Char) :=
  match cursor.toList.splitOn ':' with
  | [timestamp, txHash] => some (timestamp, txHash)
  | _ => none

namespace MemoryStorage

def getTransactionHistory (storage : MemoryStorage) (address : AccountAddress) : List TransactionRecord :=
  storage.transactionHistory.filter (involves address)

/-- The position after the transaction of the cursor, `0` if there is none. -/
def startPosition (transactions : List TransactionRecord) (cursor : Option String) : Nat :=
  match cursor.bind cursorParts with
  | none => 0
  | some (timestamp, txHash) =>
    let millis := (parseI64 timestamp).getD 0
    match transactions.findIdx? fun tx =>
      RocksDbStorage.timestampMillis tx.timestamp = millis && tx.txHash.toList = txHash with
    | some index => index + 1
    | none => 0

def getTransactionHistoryPaginated (storage : MemoryStorage) (address : AccountAddress) (limit : Nat)
    (cursor : Option String) : List TransactionRecord × Option String :=
  let addressTxs := newestFirst (storage.transactionHistory.filter (involves address))
  let filtered := (addressTxs.drop (startPosition addressTxs cursor)).take limit
  let nextCursor := if filtered.length = limit then
      filtered.getLast?.map fun last =>
        toString (RocksDbStorage.timestampMillis last.timestamp) ++ ":" ++ last.txHash
    else none
  (filtered, nextCursor)

def getAllTransactionsPaginated (storage : MemoryStorage) (limit offset : Nat) : List TransactionRecord × Nat :=
  (((newestFirst storage.transactionHistory).drop offset).take limit, storage.transactionHistory.length)

end MemoryStorage

namespace RocksDbStorage

def startsWith (start key : String) : Bool := start.toList.isPrefixOf key.toList

variable [RecordJson] (storage : RocksDbStorage)

def loadTransaction (txHash : String) : Option TransactionRecord :=
  (storage.db.lookup (txKey txHash)).bind RecordJson.fromSlice

/-- The entries under a prefix, from the prefix on. -/
def scanPrefix (start : String) : List (String × String) :=
  (HashMap.scanForward storage.db start).takeWhile fun entry => startsWith start entry.1

def getTransactionHistory (address : AccountAddress) : List TransactionRecord :=
  let addrHex := hexEncode address.asBytes.bytes
  let sent := (storage.scanPrefix ("tx_from:" ++ addrHex ++ ":")).filterMap fun entry => storage.loadTransaction entry.2
  let transactions := (storage.scanPrefix ("tx_to:" ++ addrHex ++ ":")).foldl (fun transactions entry =>
    match storage.loadTransaction entry.2 with
    | some tx => if transactions.any fun other => other.txHash = tx.txHash then transactions else transactions ++ [tx]
    | none => transactions) sent
  newestFirst transactions

def fillPage (start : String) (limit : Nat) :
    List (String × String) → List TransactionRecord → Bool → List TransactionRecord × Option String
  | [], transactions, _ => (transactions, none)
  | (key, value) :: rest, transactions, skipFirst =>
    if transactions.length ≥ limit then (transactions, some key)
    else if !startsWith start key then (transactions, none)
    else if skipFirst then fillPage start limit rest transactions false
    else
      match storage.loadTransaction value with
      | some tx => fillPage start limit rest (transactions ++ [tx]) false
      | none => fillPage start limit rest transactions false

def getTransactionHistoryPaginated (address : AccountAddress) (limit : Nat) (cursor : Option String) :
    List TransactionRecord × Option String :=
  let (startKey, skipFirst) := match cursor.bind cursorParts with
    | some (timestamp, txHash) =>
      (addrPrefix address ++ String.ofList timestamp ++ ":" ++ String.ofList txHash, true)
    | none => (addrPrefix address, false)
  let (transactions, lastCursorKey) :=
    storage.fillPage (addrPrefix address) limit (HashMap.scanReverse storage.db startKey) [] skipFirst
  let nextCursor := if transactions.length = limit then
      lastCursorKey.bind fun key =>
        if startsWith (addrPrefix address) key then
          some (String.ofList (key.toList.drop (addrPrefix address).toList.length))
        else none
    else none
  (transactions, nextCursor)

def getAllTransactionsPaginated (limit offset : Nat) : List TransactionRecord × Nat :=
  let allTxs := (storage.scanPrefix "tx:").filterMap fun entry => RecordJson.fromSlice entry.2
  (((newestFirst allTxs).drop offset).take limit, allTxs.length)

end RocksDbStorage

end AdicModel.Economics
