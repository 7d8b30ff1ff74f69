import AdicCore.Economics.TransactionHistory
import AdicCore.Library.Paging

open AdicModel AdicModel.Economics

namespace AdicProof.Economics

theorem toString_int_toList (value : Int) : (toString value).toList =
    (if value < 0 then ['-'] else []) ++ Nat.toDigits 10 value.natAbs := by
  cases value with
  | ofNat n =>
    show (Nat.repr n).toList = _
    rw [Nat.toList_repr]
    rfl
  | negSucc n =>
    show ("-" ++ Nat.repr (n + 1)).toList = _
    rw [String.toList_append, Nat.toList_repr, if_pos (Int.negSucc_lt_zero n)]
    rfl

theorem foldl_digits (digits : List Char) (value : Nat) :
    digits.foldl (fun (value : Int) digit => 10 * value + ((digit.toNat - '0'.toNat : Nat) : Int)) (value : Int) =
      (digits.foldl (fun value digit => 10 * value + (digit.toNat - '0'.toNat)) value : Nat) := by
  induction digits generalizing value with
  | nil => rfl
  | cons digit digits ih =>
    rw [List.foldl_cons, List.foldl_cons, ← ih]
    push_cast
    rfl

def signedValue (negative : Bool) (digits : List Char) : Option Int :=
  if digits.isEmpty || !digits.all Char.isDigit then none
  else
    let magnitude : Int := digits.foldl (fun value digit => 10 * value + (digit.toNat - '0'.toNat : Nat)) 0
    let value := if negative then -magnitude else magnitude
    if -2 ^ 63 ≤ value ∧ value < 2 ^ 63 then some value else none

theorem parseI64_minus (digits : List Char) : parseI64 ('-' :: digits) = signedValue true digits := rfl

theorem parseI64_plain {text : List Char} (digits : ∀ digit ∈ text, digit.isDigit = true) :
    parseI64 text = signedValue false text := by
  unfold parseI64
  split
  next negative unsigned sign =>
  split at sign
  · next rest => exact absurd (digits '-' List.mem_cons_self) (by decide)
  · next rest => exact absurd (digits '+' List.mem_cons_self) (by decide)
  · cases sign
    rfl

theorem parseI64_toString {value : Int} (bounded : -2 ^ 63 ≤ value ∧ value < 2 ^ 63) :
    parseI64 (toString value).toList = some value := by
  have digits : ∀ digit ∈ Nat.toDigits 10 value.natAbs, digit.isDigit = true :=
    fun digit member => Nat.isDigit_of_mem_toDigits (by decide) (by decide) member
  have nonempty : (Nat.toDigits 10 value.natAbs).isEmpty = false := by
    rw [List.isEmpty_eq_false_iff]
    exact Nat.toDigits_ne_nil
  have all : (Nat.toDigits 10 value.natAbs).all Char.isDigit = true := List.all_eq_true.mpr digits
  have magnitude : (Nat.toDigits 10 value.natAbs).foldl
      (fun (value : Int) digit => 10 * value + ((digit.toNat - '0'.toNat : Nat) : Int)) 0 = (value.natAbs : Int) := by
    have read := foldl_digits (Nat.toDigits 10 value.natAbs) 0
    rw [← Nat.ofDigitChars_eq_foldl, Nat.ofDigitChars_ten_toDigits] at read
    exact read
  have signed : ∀ negative : Bool, (if negative then -(value.natAbs : Int) else value.natAbs) = value →
      signedValue negative (Nat.toDigits 10 value.natAbs) = some value := by
    intro negative same
    unfold signedValue
    rw [nonempty, all, if_neg (by decide), magnitude]
    dsimp only
    rw [same, if_pos bounded]
  rw [toString_int_toList]
  by_cases negative : value < 0
  · rw [if_pos negative, List.singleton_append, parseI64_minus]
    exact signed true (by rw [if_pos rfl]; omega)
  · rw [if_neg negative, List.nil_append, parseI64_plain digits]
    exact signed false (by rw [if_neg Bool.false_ne_true]; omega)

theorem colon_toString (value : Int) : ':' ∉ (toString value).toList := by
  rw [toString_int_toList, List.mem_append]
  rintro (sign | digit)
  · split at sign
    · exact absurd sign (by decide)
    · cases sign
  · exact absurd (Nat.isDigit_of_mem_toDigits (by decide) (by decide) digit) (by decide)

def cursorOf (tx : TransactionRecord) : String :=
  toString (RocksDbStorage.timestampMillis tx.timestamp) ++ ":" ++ tx.txHash

theorem cursorParts_cursorOf (tx : TransactionRecord) :
    cursorParts (cursorOf tx) = if ':' ∈ tx.txHash.toList then none
      else some ((toString (RocksDbStorage.timestampMillis tx.timestamp)).toList, tx.txHash.toList) := by
  have text : (cursorOf tx).toList =
      (toString (RocksDbStorage.timestampMillis tx.timestamp)).toList ++ ':' :: tx.txHash.toList := by
    unfold cursorOf
    rw [String.toList_append, String.toList_append, List.append_assoc]
    rfl
  unfold cursorParts
  rw [text, List.splitOn_append_cons_self_of_not_mem (colon_toString _)]
  by_cases colon : ':' ∈ tx.txHash.toList
  · rcases List.append_of_mem colon with ⟨first, second, parts⟩
    rw [if_pos colon, parts, List.splitOn_append_cons_self]
    rcases List.exists_cons_of_ne_nil (List.splitOn_ne_nil ':' first) with ⟨piece, pieces, firstParts⟩
    rcases List.exists_cons_of_ne_nil (List.splitOn_ne_nil ':' second) with ⟨other, others, secondParts⟩
    rw [firstParts, secondParts]
    cases pieces <;> rfl
  · rw [if_neg colon, List.splitOn_eq_singleton colon]

def fullHistory (storage : MemoryStorage) (address : AccountAddress) : List TransactionRecord :=
  newestFirst (storage.getTransactionHistory address)

def readPages (storage : MemoryStorage) (address : AccountAddress) (limit : Nat) :
    Nat → Option String → Option (List TransactionRecord)
  | 0, _ => none
  | steps + 1, cursor =>
    let page := storage.getTransactionHistoryPaginated address limit cursor
    match page.2 with
    | none => some page.1
    | some next => (readPages storage address limit steps (some next)).map (page.1 ++ ·)

def VisitsOnce (storage : MemoryStorage) (address : AccountAddress) (limit : Nat) : Prop :=
  ∃ steps, readPages storage address limit steps none = some (fullHistory storage address)

def resumesAt (transactions : List TransactionRecord) (position : Nat) : Nat :=
  MemoryStorage.startPosition transactions ((transactions[position]?).map cursorOf)

section

variable {storage : MemoryStorage} {address : AccountAddress} {limit : Nat}

theorem readPages_eq (positive : 0 < limit) (steps : Nat) (cursor : Option String) :
    readPages storage address limit steps cursor =
      Paging.follow (fullHistory storage address) limit (resumesAt (fullHistory storage address)) steps
        (MemoryStorage.startPosition (fullHistory storage address) cursor) := by
  induction steps generalizing cursor with
  | zero => rfl
  | succ steps ih =>
    have page : storage.getTransactionHistoryPaginated address limit cursor =
        (((fullHistory storage address).drop
            (MemoryStorage.startPosition (fullHistory storage address) cursor)).take limit,
          if (((fullHistory storage address).drop
              (MemoryStorage.startPosition (fullHistory storage address) cursor)).take limit).length = limit then
            (((fullHistory storage address).drop
              (MemoryStorage.startPosition (fullHistory storage address) cursor)).take limit).getLast?.map cursorOf
          else none) := rfl
    unfold readPages Paging.follow
    rw [page]
    generalize MemoryStorage.startPosition (fullHistory storage address) cursor = start
    generalize items : fullHistory storage address = transactions at ih ⊢
    dsimp only
    by_cases full : ((transactions.drop start).take limit).length = limit
    · rw [if_pos full, if_pos full]
      rw [Paging.length_page] at full
      have inside : start + limit - 1 < transactions.length := by omega
      have last : ((transactions.drop start).take limit).getLast? = transactions[start + limit - 1]? := by
        rw [List.getLast?_eq_getElem?, Paging.length_page, List.getElem?_take, if_pos (by omega), List.getElem?_drop]
        congr 1
        omega
      rw [last, List.getElem?_eq_getElem inside, Option.map_some]
      dsimp only
      have resumed : resumesAt transactions (start + limit - 1) =
          MemoryStorage.startPosition transactions (some (cursorOf (transactions[start + limit - 1]))) := by
        unfold resumesAt
        rw [List.getElem?_eq_getElem inside, Option.map_some]
      rw [ih, resumed]
    · rw [if_neg full, if_neg full]

def SameCursor (first second : TransactionRecord) : Prop :=
  RocksDbStorage.timestampMillis first.timestamp = RocksDbStorage.timestampMillis second.timestamp ∧
    first.txHash = second.txHash

def Resumable (transactions : List TransactionRecord) (position : Nat) : Prop :=
  ∀ tx, transactions[position]? = some tx → ':' ∉ tx.txHash.toList ∧
    ∀ earlier other, earlier < position → transactions[earlier]? = some other → ¬ SameCursor other tx

def InRange (tx : TransactionRecord) : Prop :=
  -2 ^ 63 ≤ RocksDbStorage.timestampMillis tx.timestamp ∧ RocksDbStorage.timestampMillis tx.timestamp < 2 ^ 63

variable {transactions : List TransactionRecord} {position : Nat}

theorem resumesAt_cases (inside : position < transactions.length) (range : InRange (transactions[position])) :
    resumesAt transactions position ≤ position + 1 ∧
      (resumesAt transactions position = position + 1 ↔ Resumable transactions position) := by
  unfold resumesAt MemoryStorage.startPosition
  rw [List.getElem?_eq_getElem inside, Option.map_some, Option.bind_some, cursorParts_cursorOf]
  generalize self : transactions[position] = tx at range
  have resumable : Resumable transactions position ↔ ':' ∉ tx.txHash.toList ∧
      ∀ earlier other, earlier < position → transactions[earlier]? = some other → ¬ SameCursor other tx := by
    unfold Resumable
    rw [List.getElem?_eq_getElem inside, self]
    simp
  rw [resumable]
  by_cases colon : ':' ∈ tx.txHash.toList
  · rw [if_pos colon]
    exact ⟨Nat.zero_le _, fun same => (nomatch same), fun fresh => (fresh.1 colon).elim⟩
  rw [if_neg colon]
  dsimp only
  rw [parseI64_toString range, Option.getD_some]
  have matching : ∀ other, (RocksDbStorage.timestampMillis other.timestamp =
      RocksDbStorage.timestampMillis tx.timestamp && other.txHash.toList = tx.txHash.toList) = true ↔
        SameCursor other tx := by
    intro other
    rw [Bool.and_eq_true, decide_eq_true_iff, decide_eq_true_iff, String.toList_inj]
    rfl
  split
  · next index found =>
    rw [List.findIdx?_eq_some_iff_getElem] at found
    rcases found with ⟨bound, here, before⟩
    simp only [matching] at here before
    have first : index ≤ position := by
      by_contra later
      exact before position (not_le.mp later) (by rw [self]; exact ⟨rfl, rfl⟩)
    refine ⟨by omega, fun same => ⟨colon, fun earlier other less present alike => ?_⟩, fun fresh => ?_⟩
    · rcases List.getElem?_eq_some_iff.mp present with ⟨_, rfl⟩
      exact before earlier (by omega) alike
    · by_contra different
      exact fresh.2 index _ (by omega) (List.getElem?_eq_getElem bound) here
  · next none =>
    rw [List.findIdx?_eq_none_iff] at none
    have absent := none tx (by rw [← self]; exact List.getElem_mem inside)
    rw [Bool.eq_false_iff, ne_eq, matching] at absent
    exact (absent ⟨rfl, rfl⟩).elim

theorem mem_fullHistory {tx : TransactionRecord} (member : tx ∈ fullHistory storage address) :
    tx ∈ storage.transactionHistory := by
  unfold fullHistory newestFirst at member
  exact (List.mem_filter.mp (List.mem_mergeSort.mp member)).1

theorem resumesAt_fullHistory (ranges : ∀ tx ∈ storage.transactionHistory, InRange tx)
    (inside : position < (fullHistory storage address).length) :
    resumesAt (fullHistory storage address) position ≤ position + 1 ∧
      (resumesAt (fullHistory storage address) position = position + 1 ↔
        Resumable (fullHistory storage address) position) :=
  resumesAt_cases inside (ranges _ (mem_fullHistory (List.getElem_mem inside)))

theorem visitsOnce_iff_resumes (positive : 0 < limit) (ranges : ∀ tx ∈ storage.transactionHistory, InRange tx) :
    VisitsOnce storage address limit ↔ ∀ count, (count + 1) * limit ≤ (fullHistory storage address).length →
      resumesAt (fullHistory storage address) ((count + 1) * limit - 1) = (count + 1) * limit := by
  have start : MemoryStorage.startPosition (fullHistory storage address) none = 0 := rfl
  unfold VisitsOnce
  simp only [readPages_eq positive, start]
  exact Paging.follow_iff positive fun position inside => (resumesAt_fullHistory ranges inside).1

/-- The pages are the history exactly if the cursor of every full page tells its last transaction from the earlier
    ones. -/
theorem pages_visit_once_iff (storage : MemoryStorage) (address : AccountAddress) (limit : Nat) (positive : 0 < limit)
    (ranges : ∀ tx ∈ storage.transactionHistory, InRange tx) :
    VisitsOnce storage address limit ↔ ∀ count, (count + 1) * limit ≤ (fullHistory storage address).length →
      Resumable (fullHistory storage address) ((count + 1) * limit - 1) := by
  rw [visitsOnce_iff_resumes positive ranges]
  refine forall_congr' fun count => forall_congr' fun within => ?_
  have more : limit ≤ (count + 1) * limit := Nat.le_mul_of_pos_left limit (Nat.succ_pos count)
  have resumed := (@resumesAt_fullHistory storage address ((count + 1) * limit - 1) ranges (by omega)).2
  rw [Nat.sub_add_cancel (by omega)] at resumed
  exact resumed

end

def epochRecord (txHash : String) : TransactionRecord :=
  ⟨AccountAddress.treasury, AccountAddress.faucet, ⟨5⟩, ⟨0, 0⟩, txHash, "confirmed"⟩

def recorded (txHashes : List String) : MemoryStorage :=
  { MemoryStorage.new with transactionHistory := txHashes.map epochRecord }

theorem recorded_inRange (txHashes : List String) : ∀ tx ∈ (recorded txHashes).transactionHistory, InRange tx := by
  intro tx member
  rcases List.mem_map.mp member with ⟨txHash, _, rfl⟩
  have millis : RocksDbStorage.timestampMillis ⟨0, 0⟩ = 0 := by decide
  show -2 ^ 63 ≤ RocksDbStorage.timestampMillis ⟨0, 0⟩ ∧ RocksDbStorage.timestampMillis ⟨0, 0⟩ < 2 ^ 63
  rw [millis]
  exact ⟨by decide, by decide⟩

theorem fullHistory_recorded (txHashes : List String) :
    fullHistory (recorded txHashes) AccountAddress.treasury = txHashes.map epochRecord := by
  have sent : (recorded txHashes).getTransactionHistory AccountAddress.treasury = txHashes.map epochRecord := by
    unfold MemoryStorage.getTransactionHistory
    refine List.filter_eq_self.mpr fun tx member => ?_
    rcases List.mem_map.mp member with ⟨txHash, _, rfl⟩
    simp [involves, epochRecord]
  unfold fullHistory newestFirst
  rw [sent]
  refine List.mergeSort_of_pairwise ?_
  rw [List.pairwise_map]
  exact List.pairwise_of_forall fun _ _ => rfl

theorem pages_visit_once_two : VisitsOnce (recorded ["ab", "cd"]) AccountAddress.treasury 1 := by
  refine (pages_visit_once_iff _ _ 1 Nat.one_pos (recorded_inRange _)).mpr fun count within => ?_
  rw [fullHistory_recorded] at within ⊢
  have two : count + 1 ≤ 2 := by simpa using within
  intro tx found
  have known : count = 0 ∨ count = 1 := by omega
  rcases known with rfl | rfl
  · cases found
    exact ⟨by decide, fun earlier other less => absurd less (Nat.not_lt_zero _)⟩
  · cases found
    refine ⟨by decide, fun earlier other less present alike => ?_⟩
    have first : earlier = 0 := by omega
    subst first
    cases present
    exact absurd alike.2 (by decide)

/-- Two equal transfers of one second. -/
theorem equal_transfers_loop : ¬ ∀ (storage : MemoryStorage) (address : AccountAddress) (limit : Nat), 0 < limit →
    VisitsOnce storage address limit := by
  intro claim
  have once := claim (recorded ["ab", "ab"]) AccountAddress.treasury 1 Nat.one_pos
  rw [visitsOnce_iff_resumes Nat.one_pos (recorded_inRange _), fullHistory_recorded] at once
  exact absurd (once 1 (by decide)) (by decide +kernel)

end AdicProof.Economics
