import AdicCore.Economics.RocksBooks
import AdicCore.Economics.TransactionHistory

open AdicModel AdicModel.Economics Calls

namespace AdicProof.Economics

def memoryRecorded (transactions : List TransactionRecord) : MemoryStorage :=
  Runs.after (fun storage tx => stateAfter (MemoryStorage.recordTransaction tx) storage) MemoryStorage.new transactions

def rocksRecorded [RecordJson] (transactions : List TransactionRecord) : RocksDbStorage :=
  Runs.after (fun storage tx => stateAfter (RocksDbStorage.recordTransaction tx) storage) RocksDbStorage.new transactions

def HistoriesAgree [RecordJson] (memory : MemoryStorage) (rocks : RocksDbStorage) (address : AccountAddress) : Prop :=
  (∀ tx, tx ∈ memory.getTransactionHistory address ↔ tx ∈ rocks.getTransactionHistory address) ∧
    (∀ limit, (memory.getTransactionHistoryPaginated address limit none).1 =
      (rocks.getTransactionHistoryPaginated address limit none).1) ∧
    ∀ limit offset, (memory.getAllTransactionsPaginated limit offset).2 =
      (rocks.getAllTransactionsPaginated limit offset).2

theorem memoryRecorded_history (transactions : List TransactionRecord) :
    (memoryRecorded transactions).transactionHistory = transactions := by
  unfold memoryRecorded
  induction transactions using List.reverseRecOn with
  | nil => rfl
  | append_singleton before tx ih =>
    rw [Runs.after_snoc]
    exact congrArg (fun earlier => earlier ++ [tx]) ih

section

theorem startsWith_iff {start key : String} : RocksDbStorage.startsWith start key = true ↔ start.toList <+: key.toList :=
  List.isPrefixOf_iff_prefix

theorem txKey_toList (txHash : String) : (RocksDbStorage.txKey txHash).toList = 't' :: 'x' :: ':' :: txHash.toList := by
  unfold RocksDbStorage.txKey
  rw [String.toList_append]
  rfl

theorem addrPrefix_toList (address : AccountAddress) : (RocksDbStorage.addrPrefix address).toList =
    't' :: 'x' :: '_' :: 'b' :: ("y_addr:".toList ++ (hexEncode address.asBytes.bytes).toList ++ [':']) := by
  unfold RocksDbStorage.addrPrefix
  rw [String.toList_append, String.toList_append]
  rfl

theorem addrPrefix_length (address : AccountAddress) : (RocksDbStorage.addrPrefix address).toList.length = 76 := by
  have hex : (hexEncode address.asBytes.bytes).toList.length = 64 := by
    unfold hexEncode
    rw [String.toList_ofList, List.length_flatMap]
    simp [address.asBytes.size]
  rw [addrPrefix_toList]
  simp [hex]

theorem addrKey_toList (address : AccountAddress) (tx : TransactionRecord) : ∃ last rest,
    (RocksDbStorage.addrKey address tx).toList = (RocksDbStorage.addrPrefix address).toList ++ last :: rest := by
  unfold RocksDbStorage.addrKey
  rw [String.toList_append, String.toList_append, String.toList_append, List.append_assoc, List.append_assoc]
  cases (RocksDbStorage.padTimestamp (RocksDbStorage.timestampMillis tx.timestamp)).toList with
  | nil => exact ⟨':', tx.txHash.toList, rfl⟩
  | cons last rest => exact ⟨last, rest ++ (":".toList ++ tx.txHash.toList), rfl⟩

theorem txKey_injective {first second : String} (same : RocksDbStorage.txKey first = RocksDbStorage.txKey second) :
    first = second := by
  have lists := congrArg String.toList same
  rw [txKey_toList, txKey_toList] at lists
  exact String.toList_inj.mp (by simpa using lists)

theorem txKey_ne_addrKey (txHash : String) (address : AccountAddress) (tx : TransactionRecord) :
    RocksDbStorage.txKey txHash ≠ RocksDbStorage.addrKey address tx := by
  intro same
  have lists := congrArg String.toList same
  rcases addrKey_toList address tx with ⟨last, rest, key⟩
  rw [txKey_toList, key, addrPrefix_toList] at lists
  simp at lists

theorem addrKey_ne_addrPrefix (address other : AccountAddress) (tx : TransactionRecord) :
    RocksDbStorage.addrKey address tx ≠ RocksDbStorage.addrPrefix other := by
  intro same
  have lengths := congrArg (fun key => key.toList.length) same
  rcases addrKey_toList address tx with ⟨last, rest, key⟩
  simp only [key, List.length_append, addrPrefix_length, List.length_cons] at lengths
  omega

end

section

variable [RecordJson]

structure Indexed (transactions : List TransactionRecord) (storage : RocksDbStorage) : Prop where
  sound : storage.faults = []
  records : ∀ txHash value, storage.db.lookup (RocksDbStorage.txKey txHash) = some value ↔
    ∃ tx ∈ transactions, tx.txHash = txHash ∧ RecordJson.toVec tx = value
  keys : ∀ key value, storage.db.lookup key = some value →
    (∃ txHash, key = RocksDbStorage.txKey txHash) ∨ ∃ address tx, key = RocksDbStorage.addrKey address tx

variable {transactions : List TransactionRecord} {storage : RocksDbStorage}

theorem lookup_recordTransaction (sound : storage.faults = []) (tx : TransactionRecord) (key : String) :
    (stateAfter (RocksDbStorage.recordTransaction tx) storage).faults = [] ∧
      ((stateAfter (RocksDbStorage.recordTransaction tx) storage).db.lookup key =
          if key = RocksDbStorage.addrKey tx.sender tx ∨ key = RocksDbStorage.addrKey tx.recipient tx then
            some tx.txHash
          else if key = RocksDbStorage.txKey tx.txHash then some (RecordJson.toVec tx)
          else storage.db.lookup key) := by
  unfold stateAfter RocksDbStorage.recordTransaction RocksDbStorage.write
  simp only [sound, true_and]
  by_cases same : tx.sender = tx.recipient
  · simp only [same, ne_eq, not_true, if_false, HashMap.lookup_insert_eq, or_self]
  · simp only [ne_eq, same, not_false_eq_true, if_true, HashMap.lookup_insert_eq]
    by_cases toKey : key = RocksDbStorage.addrKey tx.recipient tx
    · rw [if_pos toKey, if_pos (.inr toKey)]
    · simp only [toKey, if_false, or_false]

theorem Indexed.record (indexed : Indexed transactions storage) {tx : TransactionRecord}
    (fresh : tx.txHash ∉ transactions.map TransactionRecord.txHash) :
    Indexed (transactions ++ [tx]) (stateAfter (RocksDbStorage.recordTransaction tx) storage) where
  sound := (lookup_recordTransaction indexed.sound tx "").1
  records := by
    intro txHash value
    rw [(lookup_recordTransaction indexed.sound tx _).2, if_neg]
    swap
    · rintro (same | same)
      · exact txKey_ne_addrKey _ _ _ same
      · exact txKey_ne_addrKey _ _ _ same
    by_cases same : txHash = tx.txHash
    · subst same
      rw [if_pos rfl, Option.some.injEq]
      constructor
      · intro encoded
        exact ⟨tx, by simp, rfl, encoded⟩
      · rintro ⟨other, member, hash, encoded⟩
        rcases List.mem_append.mp member with earlier | last
        · exact absurd (List.mem_map.mpr ⟨other, earlier, hash⟩) fresh
        · rw [List.mem_singleton] at last
          rw [← last]
          exact encoded
    · rw [if_neg fun keys => same (txKey_injective keys), indexed.records]
      constructor
      · rintro ⟨other, member, hash, encoded⟩
        exact ⟨other, List.mem_append_left _ member, hash, encoded⟩
      · rintro ⟨other, member, hash, encoded⟩
        rcases List.mem_append.mp member with earlier | last
        · exact ⟨other, earlier, hash, encoded⟩
        · rw [List.mem_singleton] at last
          rw [last] at hash
          exact absurd hash.symm same
  keys := by
    intro key value found
    rw [(lookup_recordTransaction indexed.sound tx key).2] at found
    split at found
    · next address =>
      rcases address with same | same
      · exact .inr ⟨_, _, same⟩
      · exact .inr ⟨_, _, same⟩
    · split at found
      · next same => exact .inl ⟨_, same⟩
      · exact indexed.keys key value found

theorem indexed_rocksRecorded (distinct : (transactions.map TransactionRecord.txHash).Nodup) :
    Indexed transactions (rocksRecorded transactions) := by
  unfold rocksRecorded
  induction transactions using List.reverseRecOn with
  | nil =>
    refine ⟨rfl, fun txHash value => ?_, fun key value found => nomatch found⟩
    have empty : RocksDbStorage.new.db.lookup (RocksDbStorage.txKey txHash) = none := rfl
    simp [empty]
  | append_singleton before tx ih =>
    rw [List.map_append, List.map_singleton, List.nodup_append] at distinct
    rw [Runs.after_snoc]
    refine (ih distinct.1).record fun member => ?_
    exact distinct.2.2 _ member _ (List.mem_singleton_self _) rfl

section

variable (indexed : Indexed transactions storage)

include indexed

theorem Indexed.scanPrefix_nil {start : String} {letter : Char} {rest : List Char}
    (begins : start.toList = 't' :: 'x' :: '_' :: letter :: rest) (other : letter ≠ 'b') :
    storage.scanPrefix start = [] := by
  unfold RocksDbStorage.scanPrefix
  rw [List.takeWhile_eq_nil_iff]
  intro nonempty
  rw [startsWith_iff, begins]
  have member : ((HashMap.scanForward storage.db start).get ⟨0, nonempty⟩) ∈ HashMap.scanForward storage.db start :=
    List.get_mem _ _
  generalize (HashMap.scanForward storage.db start).get ⟨0, nonempty⟩ = entry at member
  obtain ⟨key, value⟩ := entry
  rcases indexed.keys key value (HashMap.mem_scanForward.mp member).1 with ⟨txHash, rfl⟩ | ⟨address, tx, rfl⟩
  · rw [txKey_toList]
    simp
  · rcases addrKey_toList address tx with ⟨last, tail, key⟩
    rw [key, addrPrefix_toList]
    simp [other]

theorem Indexed.history (address : AccountAddress) : storage.getTransactionHistory address = [] := by
  unfold RocksDbStorage.getTransactionHistory
  have sent : storage.scanPrefix ("tx_from:" ++ hexEncode address.asBytes.bytes ++ ":") = [] := by
    refine @Indexed.scanPrefix_nil _ _ _ indexed _ 'f'
      ("rom:".toList ++ (hexEncode address.asBytes.bytes).toList ++ [':']) ?_ (by decide)
    rw [String.toList_append, String.toList_append]
    rfl
  have received : storage.scanPrefix ("tx_to:" ++ hexEncode address.asBytes.bytes ++ ":") = [] := by
    refine @Indexed.scanPrefix_nil _ _ _ indexed _ 't'
      ("o:".toList ++ (hexEncode address.asBytes.bytes).toList ++ [':']) ?_ (by decide)
    rw [String.toList_append, String.toList_append]
    rfl
  simp only [sent, received, List.filterMap_nil, List.foldl_nil]
  exact List.mergeSort_nil

theorem Indexed.page (address : AccountAddress) (limit : Nat) :
    (storage.getTransactionHistoryPaginated address limit none).1 = [] := by
  unfold RocksDbStorage.getTransactionHistoryPaginated
  simp only [Option.bind_none]
  cases scanned : HashMap.scanReverse storage.db (RocksDbStorage.addrPrefix address) with
  | nil => rfl
  | cons entry rest =>
    obtain ⟨key, value⟩ := entry
    have member : (key, value) ∈ HashMap.scanReverse storage.db (RocksDbStorage.addrPrefix address) := by
      rw [scanned]
      exact List.mem_cons_self
    rcases HashMap.mem_scanReverse.mp member with ⟨found, before⟩
    have outside : RocksDbStorage.startsWith (RocksDbStorage.addrPrefix address) key = false := by
      rw [← Bool.not_eq_true, startsWith_iff]
      intro begins
      have same : key = RocksDbStorage.addrPrefix address :=
        le_antisymm before (String.le_iff_toList_le.mpr (HashMap.le_of_prefix begins))
      rcases indexed.keys key value found with ⟨txHash, isTx⟩ | ⟨other, tx, isAddr⟩
      · have lists := congrArg String.toList (isTx.symm.trans same)
        rw [txKey_toList, addrPrefix_toList] at lists
        simp at lists
      · exact addrKey_ne_addrPrefix other address tx (isAddr.symm.trans same)
    unfold RocksDbStorage.fillPage
    simp only [outside, Bool.not_false, if_true]
    split <;> rfl

theorem Indexed.scanPrefix_records (distinct : (transactions.map TransactionRecord.txHash).Nodup) :
    (storage.scanPrefix "tx:").Perm
      (transactions.map fun tx => (RocksDbStorage.txKey tx.txHash, RecordJson.toVec tx)) := by
  have keys : (transactions.map fun tx => (RocksDbStorage.txKey tx.txHash, RecordJson.toVec tx)).Nodup := by
    refine List.Nodup.of_map TransactionRecord.txHash distinct |>.map_on ?_
    intro tx member other otherMember same
    exact List.inj_on_of_nodup_map distinct member otherMember (txKey_injective (congrArg Prod.fst same))
  unfold RocksDbStorage.scanPrefix
  rw [List.perm_ext_iff_of_nodup (HashMap.scanForward_nodup.sublist (List.takeWhile_sublist _)) keys]
  rintro ⟨key, value⟩
  rw [HashMap.mem_takeWhile_begins (fun _ _ => String.le_iff_toList_le) (fun _ => startsWith_iff), List.mem_map]
  constructor
  · rintro ⟨found, begins⟩
    rcases indexed.keys key value found with ⟨txHash, rfl⟩ | ⟨address, tx, rfl⟩
    · rcases (indexed.records txHash value).mp found with ⟨tx, member, rfl, rfl⟩
      exact ⟨tx, member, rfl⟩
    · rcases addrKey_toList address tx with ⟨last, rest, key⟩
      have start : "tx:".toList = ['t', 'x', ':'] := rfl
      rw [key, addrPrefix_toList, start] at begins
      simp at begins
  · rintro ⟨tx, member, same⟩
    cases same
    have begins : "tx:".toList <+: (RocksDbStorage.txKey tx.txHash).toList := by
      rw [txKey_toList]
      exact ⟨tx.txHash.toList, rfl⟩
    exact ⟨(indexed.records _ _).mpr ⟨tx, member, rfl, rfl⟩, begins⟩

theorem Indexed.total (distinct : (transactions.map TransactionRecord.txHash).Nodup)
    (readable : ∀ tx ∈ transactions, RecordJson.fromSlice (RecordJson.toVec tx) = some tx) (limit offset : Nat) :
    (storage.getAllTransactionsPaginated limit offset).2 = transactions.length := by
  show ((storage.scanPrefix "tx:").filterMap fun entry => RecordJson.fromSlice entry.2).length = _
  rw [((indexed.scanPrefix_records distinct).filterMap _).length_eq, List.filterMap_map]
  have all : transactions.filterMap ((fun entry : String × String => RecordJson.fromSlice entry.2) ∘
      fun tx => (RocksDbStorage.txKey tx.txHash, RecordJson.toVec tx)) = transactions.filterMap some :=
    List.filterMap_congr readable
  rw [all, List.filterMap_some]

end

/-- The two stores agree on an address exactly if no transaction is from or to it. -/
theorem histories_agree_iff (transactions : List TransactionRecord)
    (distinct : (transactions.map TransactionRecord.txHash).Nodup)
    (readable : ∀ tx ∈ transactions, RecordJson.fromSlice (RecordJson.toVec tx) = some tx)
    (address : AccountAddress) :
    HistoriesAgree (memoryRecorded transactions) (rocksRecorded transactions) address ↔
      ∀ tx ∈ transactions, tx.sender ≠ address ∧ tx.recipient ≠ address := by
  have indexed := indexed_rocksRecorded distinct
  have history := indexed.history address
  have uninvolved : transactions.filter (involves address) = [] ↔
      ∀ tx ∈ transactions, tx.sender ≠ address ∧ tx.recipient ≠ address := by
    rw [List.filter_eq_nil_iff]
    simp [involves]
  rw [← uninvolved]
  constructor
  · intro agree
    rw [List.eq_nil_iff_forall_not_mem]
    intro tx member
    have absent := (agree.1 tx).mp (by
      unfold MemoryStorage.getTransactionHistory
      rw [memoryRecorded_history]
      exact member)
    rw [history] at absent
    cases absent
  · intro none
    refine ⟨fun tx => ?_, fun limit => ?_, fun limit offset => ?_⟩
    · unfold MemoryStorage.getTransactionHistory
      rw [memoryRecorded_history, none, history]
    · rw [indexed.page address limit]
      unfold MemoryStorage.getTransactionHistoryPaginated
      rw [memoryRecorded_history, none]
      simp [newestFirst]
    · rw [indexed.total distinct readable limit offset]
      unfold MemoryStorage.getAllTransactionsPaginated
      rw [memoryRecorded_history]

end

theorem histories_agree_iff_one : @HistoriesAgree sampleJson (memoryRecorded [sampleRecord])
    (@rocksRecorded sampleJson [sampleRecord]) (account 3) := by
  have readable : ∀ tx ∈ [sampleRecord], sampleJson.fromSlice (sampleJson.toVec tx) = some tx := by
    intro tx member
    rw [List.mem_singleton.mp member]
    exact if_pos rfl
  refine (@histories_agree_iff sampleJson [sampleRecord] (by simp) readable (account 3)).mpr ?_
  intro tx member
  rw [List.mem_singleton.mp member]
  decide

/-- The sender's history is lost in the database. -/
theorem histories_disagree_sender : ¬ @HistoriesAgree sampleJson (memoryRecorded [sampleRecord])
    (@rocksRecorded sampleJson [sampleRecord]) (account 1) := by
  let json := sampleJson
  intro agree
  have stored : sampleRecord ∈ (memoryRecorded [sampleRecord]).getTransactionHistory (account 1) := by decide
  have found := (agree.1 sampleRecord).mp stored
  rw [(indexed_rocksRecorded (by simp)).history] at found
  cases found

end AdicProof.Economics
