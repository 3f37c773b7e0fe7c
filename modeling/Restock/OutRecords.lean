/-
# The sync of out-records (`sync/out_records.py`, `saihu/endpoints/out_records.py`)

A run lists the out-records that are in transit, page by page, and stores each with its
items and the time the run began at, all in one transaction. In later transactions it
fills in countries and takes the flag from every record that was last seen before the
run. A page without rows ends the listing, whatever the number of pages.

If pages without rows come only at the end, a record has the flag after a run exactly if
the remote lists it (`flags_of_reach`). If one comes before, the records on the pages
after it lose their flags (`flag_lost_after_empty_page`).
-/
import Restock.CountrySync
import Restock.Lib.Lts
import Restock.Lib.Paging

namespace Restock

open PyText Paging

/-! ### What is listed and what is stored -/

/-- An item of a raw record, with what `_to_required_int` makes of its `goods`: a number,
nothing, or an error. -/
structure RawOutItem where
  commodityId : JsonValue
  commoditySku : JsonValue
  goods : Except String (Option ℤ)
  perPurchase : Option ℚ

structure ListedRecord where
  head : RawOutRecord
  items : List RawOutItem

/-- `str(raw.get("id") or "")`. -/
def ListedRecord.recordId (raw : ListedRecord) : String := raw.head.id.textOrEmpty

structure OutRecordItem where
  saihuOutRecordId : String
  commodityId : Option String
  commoditySku : String
  goods : ℤ
  perPurchase : Option ℚ
deriving DecidableEq, Repr

/-- The two tables, with the column `last_seen_at` by itself. -/
structure TransitDb where
  records : Dict String InTransitRecord
  lastSeenAt : Dict String ℤ
  items : List OutRecordItem

def TransitDb.itemsOf (db : TransitDb) (recordId : String) : List OutRecordItem :=
  db.items.filter fun item => item.saihuOutRecordId = recordId

/-- The part of a run after the listing. -/
inductive LaterStage
  | backfill | ageOut | markSuccess
deriving DecidableEq, Repr

/-- A run: when it begins, what the remote answers for each page, and what goes wrong.
`refuses` are the records that the database does not take. -/
structure OutRecordRun where
  start : ℤ
  remote : ℕ → Except String (Page ListedRecord)
  warehouseIds : List String
  euCountries : List String
  refuses : ListedRecord → Option String
  laterFault : Option LaterStage

section Sync

variable (U : CharTable)

/-- An item of a record, if it has a SKU and a positive number. -/
def validItem (recordId : String) (raw : RawOutItem) : Except String (Option OutRecordItem) :=
  if !raw.commoditySku.truthy then .ok none
  else match raw.goods with
    | .error e => .error e
    | .ok none => .ok none
    | .ok (some goods) =>
      if goods ≤ 0 then .ok none
      else match raw.commoditySku with
        | .str sku =>
          .ok (some ⟨recordId, toOptionalText U raw.commodityId, sku, goods, raw.perPurchase⟩)
        -- the column takes no other value
        | value => .error s!"expected str, got {value.toText}"

def validItems (recordId : String) : List RawOutItem → Except String (List OutRecordItem)
  | [] => .ok []
  | raw :: rest =>
    (validItem U recordId raw).bind fun item => (validItems recordId rest).map fun items =>
      item.toList ++ items

/-- `_upsert_out_record`. -/
def upsertListed (run : OutRecordRun) (raw : ListedRecord) : Transaction TransitDb String Unit :=
  if raw.recordId = "" then pure ()
  else do
    Transaction.raise (run.refuses raw)
    let items ← Transaction.ofExcept (validItems U raw.recordId raw.items)
    Transaction.change fun db =>
      { records := upsertOutRecord U raw.head run.warehouseIds run.euCountries db.records
        lastSeenAt := db.lastSeenAt.set raw.recordId run.start
        items := (db.items.filter fun item => item.saihuOutRecordId ≠ raw.recordId) ++ items }

/-- `_age_out_records`. -/
def ageOutRecords (syncStart : ℤ) (db : TransitDb) : TransitDb :=
  { db with records := db.records.mapVal fun recordId record =>
      if record.isInTransit && (db.lastSeenAt.get? recordId).any (· < syncStart) then
        { record with isInTransit := false }
      else record }

def backfillRemarks (run : OutRecordRun) (db : TransitDb) : TransitDb :=
  { db with records := backfillTargetCountryFromRemark U run.euCountries db.records }

inductive SyncOutcome
  | success
  | failedListing (error : String)
  | failedLater (stage : LaterStage)
deriving DecidableEq, Repr

/-- `_sync_out_records_job_unlocked`: the listing is one transaction, each later stage
another. -/
def syncOutRecords (fuel : ℕ) (run : OutRecordRun) (db : TransitDb) :
    Option (SyncOutcome × TransitDb) :=
  (eachPage run.remote (upsertListed U run) fuel 1 db).map fun
    | (.error e, _) => (.failedListing e, db)
    | (.ok _, listed) =>
      if run.laterFault = some .backfill then (.failedLater .backfill, listed)
      else if run.laterFault = some .ageOut then
        (.failedLater .ageOut, backfillRemarks U run listed)
      else if run.laterFault = some .markSuccess then
        (.failedLater .markSuccess, ageOutRecords run.start (backfillRemarks U run listed))
      else (.success, ageOutRecords run.start (backfillRemarks U run listed))

/-! ### Storing a list of records -/

/-- The last record of a list with the id. -/
def lastListed (recordId : String) : List ListedRecord → Option ListedRecord
  | [] => none
  | raw :: rest =>
    (lastListed recordId rest).or (if raw.recordId = recordId then some raw else none)

theorem lastListed_eq_none {recordId : String} : ∀ {raws : List ListedRecord},
    lastListed recordId raws = none ↔ ∀ raw ∈ raws, raw.recordId ≠ recordId
  | [] => by simp [lastListed]
  | raw :: rest => by
    have ih : lastListed recordId rest = none ↔ _ := lastListed_eq_none
    by_cases h : raw.recordId = recordId
    · simp [lastListed, h]
    · simp [lastListed, h, ih]

theorem lastListed_append (recordId : String) (raws' : List ListedRecord) :
    ∀ raws : List ListedRecord, lastListed recordId (raws ++ raws') = (lastListed recordId raws').or
    (lastListed recordId raws)
  | [] => by simp [lastListed]
  | raw :: rest => by
    rw [List.cons_append, lastListed, lastListed_append recordId raws' rest, lastListed,
      Option.or_assoc]

variable {U} {run : OutRecordRun} {db db' : TransitDb}

theorem validItem_recordId {recordId : String} {raw : RawOutItem} {item : OutRecordItem}
    (h : validItem U recordId raw = .ok (some item)) : item.saihuOutRecordId = recordId := by
  unfold validItem at h
  split_ifs at h
  · simp at h
  · split at h
    · cases h
    · cases h
    · split_ifs at h
      · simp at h
      · split at h
        · rw [← Option.some.inj (Except.ok.inj h)]
        · cases h

theorem validItems_recordId {recordId : String} :
    ∀ {raws : List RawOutItem} {items : List OutRecordItem},
    validItems U recordId raws = .ok items → ∀ item ∈ items, item.saihuOutRecordId = recordId
  | [], items, h, item, hitem => by
    rw [← Except.ok.inj h] at hitem
    cases hitem
  | raw :: rest, items, h, item, hitem => by
    obtain ⟨first, hfirst, hrest⟩ := Checked.bind_ok h
    obtain ⟨more, hmore, rfl⟩ := Checked.map_ok hrest
    rcases List.mem_append.mp hitem with hmem | hmem
    · rw [Option.mem_toList.mp hmem] at hfirst
      exact validItem_recordId hfirst
    · exact validItems_recordId hmore item hmem

/-- What a list of records leaves: those that are listed have the flag, the time of the
run and the items of the last of them; the others are as they were. -/
structure Stores (U : CharTable) (run : OutRecordRun) (raws : List ListedRecord)
    (db db' : TransitDb) : Prop where
  listed : ∀ recordId raw, recordId ≠ "" → lastListed recordId raws = some raw →
    (∃ record, db'.records.get? recordId = some record ∧ record.isInTransit = true) ∧
      db'.lastSeenAt.get? recordId = some run.start ∧
        validItems U recordId raw.items = .ok (db'.itemsOf recordId)
  others : ∀ recordId, recordId = "" ∨ lastListed recordId raws = none →
    db'.records.get? recordId = db.records.get? recordId ∧
      db'.lastSeenAt.get? recordId = db.lastSeenAt.get? recordId ∧
      db'.itemsOf recordId = db.itemsOf recordId

theorem get?_upsertOutRecord (raw : RawOutRecord) (warehouseIds euCountries : List String)
    (records : Dict String InTransitRecord) (hne : raw.id.textOrEmpty ≠ "") :
    ∃ record, record.isInTransit = true ∧ ∀ recordId,
      (upsertOutRecord U raw warehouseIds euCountries records).get? recordId =
        if recordId = raw.id.textOrEmpty then some record else records.get? recordId := by
  unfold upsertOutRecord
  simp only [hne, if_false]
  exact ⟨_, rfl, fun recordId => Dict.get?_set _ _ _ _⟩

section Replaced

variable {recordId : String} {items : List OutRecordItem}
    (hids : ∀ item ∈ items, item.saihuOutRecordId = recordId)
  (hitems : db'.items = (db.items.filter fun item => item.saihuOutRecordId ≠ recordId) ++ items)
include hids hitems

/-- The items of a record are replaced. -/
theorem itemsOf_replaced : db'.itemsOf recordId = items := by
  have hold : (db.items.filter fun item => item.saihuOutRecordId ≠ recordId).filter
      (fun item => item.saihuOutRecordId = recordId) = [] := by
    rw [List.filter_filter, List.filter_eq_nil_iff]
    intro item _
    simp
  have hnew : items.filter (fun item => item.saihuOutRecordId = recordId) = items :=
    List.filter_eq_self.mpr fun item hitem => decide_eq_true (hids item hitem)
  rw [TransitDb.itemsOf, hitems, List.filter_append, hold, hnew, List.nil_append]

/-- The items of the other records stay. -/
theorem itemsOf_kept {other : String} (hne : other ≠ recordId) :
    db'.itemsOf other = db.itemsOf other := by
  have hold : (db.items.filter fun item => item.saihuOutRecordId ≠ recordId).filter
      (fun item => item.saihuOutRecordId = other) = db.itemsOf other := by
    rw [List.filter_filter]
    refine List.filter_congr fun item _ => ?_
    by_cases hi : item.saihuOutRecordId = other
    · simp [hi, hne]
    · simp [hi]
  have hnew : items.filter (fun item => item.saihuOutRecordId = other) = [] := by
    rw [List.filter_eq_nil_iff]
    intro item hitem
    rw [hids item hitem]
    simpa using Ne.symm hne
  rw [TransitDb.itemsOf, hitems, List.filter_append, hold, hnew, List.append_nil]

end Replaced

/-- Storing one record. -/
theorem upsertListed_ok {raw : ListedRecord} (h : upsertListed U run raw db = (.ok (), db')) :
    Stores U run [raw] db db' := by
  unfold upsertListed at h
  by_cases hne : raw.recordId = ""
  · rw [if_pos hne] at h
    obtain ⟨-, rfl⟩ := Transaction.pure_eq_ok.mp h
    refine ⟨fun recordId raw' hid hlast => ?_, fun _ _ => ⟨rfl, rfl, rfl⟩⟩
    have hother : raw.recordId ≠ recordId := fun he => hid (he ▸ hne)
    simp [lastListed, hother] at hlast
  · rw [if_neg hne] at h
    obtain ⟨_, _, hraise, hrest⟩ := Transaction.bind_eq_ok.mp h
    obtain ⟨-, rfl⟩ := Transaction.raise_eq_ok.mp hraise
    obtain ⟨items, _, hitems, hchange⟩ := Transaction.bind_eq_ok.mp hrest
    obtain ⟨hvalid, rfl⟩ := Transaction.ofExcept_eq_ok.mp hitems
    obtain rfl := Transaction.change_eq_ok.mp hchange
    obtain ⟨record, hflag, hget⟩ :=
      get?_upsertOutRecord (U := U) raw.head run.warehouseIds run.euCountries db.records hne
    have hids := validItems_recordId hvalid
    refine ⟨fun recordId raw' hid hlast => ?_, fun recordId hother => ?_⟩
    · by_cases he : raw.recordId = recordId
      · subst he
        have hraw : raw = raw' := by simpa [lastListed] using hlast
        subst hraw
        refine ⟨⟨record, (hget _).trans (if_pos rfl), hflag⟩, Dict.get?_set_self _ _ _, ?_⟩
        rw [itemsOf_replaced hids rfl]
        exact hvalid
      · simp [lastListed, he] at hlast
    · have he : recordId ≠ raw.recordId := by
        rcases hother with rfl | hnone
        · exact Ne.symm hne
        · intro he
          simp [lastListed, he] at hnone
      exact ⟨(hget recordId).trans (if_neg he), Dict.get?_set_ne _ _ he, itemsOf_kept hids rfl he⟩

theorem Stores.nil : Stores U run [] db db := ⟨nofun, fun _ _ => ⟨rfl, rfl, rfl⟩⟩

theorem Stores.append {raws raws' : List ListedRecord} {db₁ : TransitDb}
    (h : Stores U run raws db db₁) (h' : Stores U run raws' db₁ db') :
    Stores U run (raws ++ raws') db db' := by
  refine ⟨fun recordId raw hid hraw => ?_, fun recordId hother => ?_⟩
  · rw [lastListed_append] at hraw
    cases hsecond : lastListed recordId raws' with
    | some raw' =>
      rw [hsecond, Option.some_or] at hraw
      rw [← Option.some.inj hraw]
      exact h'.listed recordId raw' hid hsecond
    | none =>
      rw [hsecond, Option.none_or] at hraw
      obtain ⟨hrecord, hseen, hitems⟩ := h.listed recordId raw hid hraw
      obtain ⟨hrecord', hseen', hitems'⟩ := h'.others recordId (Or.inr hsecond)
      exact ⟨by rw [hrecord']; exact hrecord, hseen'.trans hseen, by rw [hitems', hitems]⟩
  · have hboth : (recordId = "" ∨ lastListed recordId raws = none) ∧
      (recordId = "" ∨ lastListed recordId raws' = none) := by
      rcases hother with rfl | hnone
      · exact ⟨Or.inl rfl, Or.inl rfl⟩
      · rw [lastListed_append, Option.or_eq_none_iff] at hnone
        exact ⟨Or.inr hnone.2, Or.inr hnone.1⟩
    obtain ⟨hrecord, hseen, hitems⟩ := h.others recordId hboth.1
    obtain ⟨hrecord', hseen', hitems'⟩ := h'.others recordId hboth.2
    exact ⟨hrecord'.trans hrecord, hseen'.trans hseen, hitems'.trans hitems⟩

theorem handleAll_upsertListed : ∀ {raws : List ListedRecord} {db db' : TransitDb},
    handleAll (upsertListed U run) raws db = (.ok (), db') → Stores U run raws db db'
  | [], db, db', h => by
    obtain ⟨-, rfl⟩ := Transaction.pure_eq_ok.mp h
    exact .nil
  | raw :: rest, db, db', h => by
    obtain ⟨_, db₁, hfirst, hrest⟩ := Transaction.bind_eq_ok.mp h
    exact (upsertListed_ok hfirst).append (handleAll_upsertListed hrest)

/-! ### Listing the pages -/

/-- The rows that the remote lists on its pages. -/
def OutRecordRun.rowsUpTo (run : OutRecordRun) (total : ℤ) : List ListedRecord :=
  rowsListed run.remote (List.range' 1 total.toNat)

/-- Pages without rows come last, and if there are no pages the first answer has no rows. -/
structure OutRecordRun.EmptyPagesLast (run : OutRecordRun) (total : ℤ) : Prop where
  last : ∀ pageNo pageNo' : ℕ, 1 ≤ pageNo → pageNo < pageNo' → pageNo' ≤ total →
    rowsOf run.remote pageNo = [] → rowsOf run.remote pageNo' = []
  first : total ≤ 0 → rowsOf run.remote 1 = []

/-- If empty pages come last, the listing reads all rows. -/
theorem rowsRead_eq {total : ℤ} (h : run.EmptyPagesLast total) :
    rowsRead run.remote (pagesFrom 1 total) = run.rowsUpTo total := by
  rcases le_or_gt total 0 with h0 | hpos
  · have hzero : total.toNat = 0 := by omega
    have hone : total ≤ (1 : ℕ) := by omega
    rw [pagesFrom_of_le hone, rowsRead, if_pos (h.first h0), OutRecordRun.rowsUpTo, hzero]
    rfl
  · have hpages : pagesFrom 1 total = List.range' 1 total.toNat := by
      rw [pagesFrom]
      congr 1
      push_cast
      omega
    rw [hpages, OutRecordRun.rowsUpTo]
    refine rowsRead_eq_listed
      ((List.pairwise_lt_range').imp_of_mem fun {pageNo pageNo'} hm hm' hlt => ?_)
    rw [List.mem_range'_1] at hm hm'
    exact h.last pageNo pageNo' hm.1 hlt (by omega)

/-! ### A run, and runs -/

/-- The remote lists a record with the id on one of its pages. -/
def OutRecordRun.Lists (run : OutRecordRun) (total : ℤ) (recordId : String) : Prop :=
  recordId ≠ "" ∧ ∃ pageNo : ℕ, 1 ≤ pageNo ∧ pageNo ≤ total ∧
    ∃ raw ∈ rowsOf run.remote pageNo, raw.recordId = recordId

theorem lists_iff {total : ℤ} {recordId : String} : run.Lists total recordId ↔
    recordId ≠ "" ∧ lastListed recordId (run.rowsUpTo total) ≠ none := by
  refine and_congr_right fun _ => ?_
  rw [ne_eq, lastListed_eq_none]
  unfold OutRecordRun.rowsUpTo rowsListed
  push Not
  simp only [List.mem_flatMap, List.mem_range'_1]
  constructor
  · rintro ⟨pageNo, h1, hle, raw, hraw, he⟩
    exact ⟨raw, ⟨pageNo, by omega, hraw⟩, he⟩
  · rintro ⟨raw, ⟨pageNo, hpage, hraw⟩, he⟩
    exact ⟨pageNo, by omega, by omega, raw, hraw, he⟩

/-- What a run that succeeds leaves: a stored record has the flag exactly if the remote
lists it, and has the items of the last record of its id; what is listed is stored. -/
structure EqualsListing (U : CharTable) (run : OutRecordRun) (total : ℤ) (db : TransitDb) :
    Prop where
  flags : ∀ recordId record, db.records.get? recordId = some record →
    (record.isInTransit = true ↔ run.Lists total recordId)
  stored : ∀ recordId, run.Lists total recordId → ∃ record, db.records.get? recordId = some record
  items : ∀ recordId raw, recordId ≠ "" → lastListed recordId (run.rowsUpTo total) = some raw →
    validItems U recordId raw.items = .ok (db.itemsOf recordId)

/-- Every stored record was last seen at a time up to `t`. -/
def SeenUpTo (t : ℤ) (db : TransitDb) : Prop :=
  ∀ recordId record, db.records.get? recordId = some record →
    ∃ seen, db.lastSeenAt.get? recordId = some seen ∧ seen ≤ t

/-- The first two stages after the listing touch no flag and no id. -/
theorem get?_backfillRemarks (recordId : String) : ∃ f : InTransitRecord → InTransitRecord,
    (∀ record, (f record).isInTransit = record.isInTransit) ∧
      (backfillRemarks U run db).records.get? recordId = (db.records.get? recordId).map f := by
  refine ⟨_, fun record => ?_, Dict.get?_mapVal _ _ _⟩
  split
  · split
    · rfl
    · rfl
  · rfl

theorem get?_ageOutRecords (syncStart : ℤ) (recordId : String) :
    (ageOutRecords syncStart db).records.get? recordId =
    (db.records.get? recordId).map fun record =>
      if record.isInTransit && (db.lastSeenAt.get? recordId).any (· < syncStart) then
        { record with isInTransit := false }
      else record :=
  Dict.get?_mapVal _ _ _

/-- After the listing, what is listed was seen at the start of the run and all else before. -/
theorem Stores.seenUpTo {raws : List ListedRecord} {t : ℤ} (h : Stores U run raws db db')
    (hseen : SeenUpTo t db) (ht : t < run.start) : SeenUpTo run.start db' := by
  intro recordId record hget
  by_cases hother : recordId = "" ∨ lastListed recordId raws = none
  · obtain ⟨hrecord, hlast, -⟩ := h.others recordId hother
    obtain ⟨seen, hget', hle⟩ := hseen recordId record (hrecord ▸ hget)
    exact ⟨seen, hlast.trans hget', by omega⟩
  · push Not at hother
    obtain ⟨raw, hraw⟩ := Option.ne_none_iff_exists'.mp hother.2
    exact ⟨run.start, (h.listed recordId raw hother.1 hraw).2.1, le_rfl⟩

/-- The records that the listing has stored, aged. -/
theorem equalsListing {total t : ℤ} (h : Stores U run (run.rowsUpTo total) db db')
    (hseen : SeenUpTo t db) (ht : t < run.start) :
    EqualsListing U run total (ageOutRecords run.start (backfillRemarks U run db')) := by
  have hget : ∀ recordId, ∃ f : InTransitRecord → InTransitRecord,
      (∀ record, (f record).isInTransit =
      (record.isInTransit && !(db'.lastSeenAt.get? recordId).any (· < run.start))) ∧
      (ageOutRecords run.start (backfillRemarks U run db')).records.get? recordId =
          (db'.records.get? recordId).map f := by
    intro recordId
    obtain ⟨f, hf, hfill⟩ := @get?_backfillRemarks U run db' recordId
    refine ⟨_, fun record => ?_, by rw [get?_ageOutRecords, hfill, Option.map_map]⟩
    have hseen' : (backfillRemarks U run db').lastSeenAt = db'.lastSeenAt := rfl
    simp only [Function.comp, hf, hseen']
    split_ifs with hif
    · simp only [Bool.and_eq_true] at hif
      simp [hif.1, hif.2]
    · rw [hf]
      cases hflag : record.isInTransit with
      | false => rfl
      | true => simpa [hflag] using hif
  refine ⟨fun recordId record hrecord => ?_, fun recordId hlists => ?_,
    fun recordId raw hid hraw => ?_⟩
  · obtain ⟨f, hf, hfget⟩ := hget recordId
    rw [hfget] at hrecord
    obtain ⟨stored, hstored, rfl⟩ := Option.map_eq_some_iff.mp hrecord
    rw [hf, lists_iff]
    by_cases hother : recordId = "" ∨ lastListed recordId (run.rowsUpTo total) = none
    · -- not listed: seen before the run
      obtain ⟨hsame, hlast, -⟩ := h.others recordId hother
      obtain ⟨seen, hget', hle⟩ := hseen recordId stored (hsame ▸ hstored)
      have hold : (db'.lastSeenAt.get? recordId).any (· < run.start) = true := by
        rw [hlast, hget', Option.any_some]
        exact decide_eq_true (by omega)
      rw [hold]
      simp only [Bool.not_true, Bool.and_false, Bool.false_eq_true, false_iff, not_and, not_not]
      exact fun hid => hother.resolve_left hid
    · push Not at hother
      obtain ⟨raw, hraw⟩ := Option.ne_none_iff_exists'.mp hother.2
      obtain ⟨⟨row, hrow, hflag⟩, hseen', -⟩ := h.listed recordId raw hother.1 hraw
      obtain rfl := Option.some.inj (hstored.symm.trans hrow)
      simp [hflag, hseen', hother.1, hraw]
  · obtain ⟨hid, hne⟩ := lists_iff.mp hlists
    obtain ⟨raw, hraw⟩ := Option.ne_none_iff_exists'.mp hne
    obtain ⟨⟨row, hrow, -⟩, -, -⟩ := h.listed recordId raw hid hraw
    obtain ⟨f, -, hfget⟩ := hget recordId
    exact ⟨f row, by rw [hfget, hrow]; rfl⟩
  · exact (h.listed recordId raw hid hraw).2.2

variable (U) in
/-- Runs one after the other, each begun later than the one before. -/
def outRecordRuns : Lts (TransitDb × ℤ) OutRecordRun where
  start s := SeenUpTo s.2 s.1
  step s run s' := s.2 < run.start ∧ s'.2 = run.start ∧
    ∃ fuel outcome, syncOutRecords U fuel run s.1 = some (outcome, s'.1)

/-- How a run ends. -/
theorem syncOutRecords_cases {fuel : ℕ} {outcome : SyncOutcome}
    (h : syncOutRecords U fuel run db = some (outcome, db')) :
    (∃ e, outcome = .failedListing e ∧ db' = db) ∨
    ∃ listed, eachPage run.remote (upsertListed U run) fuel 1 db = some (.ok (), listed) ∧
      (∀ e, outcome ≠ .failedListing e) ∧
      (db' = listed ∨ db' = backfillRemarks U run listed ∨
        db' = ageOutRecords run.start (backfillRemarks U run listed)) ∧
        (outcome = .success → db' = ageOutRecords run.start (backfillRemarks U run listed)) := by
  obtain ⟨⟨result, listed⟩, hpages, hresult⟩ := Option.map_eq_some_iff.mp h
  cases result with
  | error e =>
    obtain ⟨rfl, rfl⟩ := Prod.mk.inj hresult
    exact Or.inl ⟨e, rfl, rfl⟩
  | ok u =>
    refine Or.inr ⟨listed, hpages, ?_⟩
    simp only at hresult
    split_ifs at hresult
    all_goals
      obtain ⟨rfl, rfl⟩ := Prod.mk.inj hresult
      simp

theorem SeenUpTo.backfillRemarks {t : ℤ} (h : SeenUpTo t db) :
    SeenUpTo t (backfillRemarks U run db) := by
  intro recordId record hget
  obtain ⟨f, -, hf⟩ := @get?_backfillRemarks U run db recordId
  rw [hf] at hget
  obtain ⟨stored, hstored, -⟩ := Option.map_eq_some_iff.mp hget
  exact h recordId stored hstored

theorem SeenUpTo.ageOutRecords {t : ℤ} (h : SeenUpTo t db) (syncStart : ℤ) :
    SeenUpTo t (ageOutRecords syncStart db) := by
  intro recordId record hget
  rw [get?_ageOutRecords] at hget
  obtain ⟨stored, hstored, -⟩ := Option.map_eq_some_iff.mp hget
  exact h recordId stored hstored

theorem seenUpTo_of_reach {s : TransitDb × ℤ} (h : (outRecordRuns U).Reach s) :
    SeenUpTo s.2 s.1 := by
  refine Lts.Reach.invariant (I := fun s => SeenUpTo s.2 s.1) (fun hs => hs) ?_ h
  rintro s run s' hI ⟨ht, hs', fuel, outcome, hsync⟩
  rw [hs']
  rcases syncOutRecords_cases hsync with ⟨e, -, hsame⟩ | ⟨listed, hpages, -, hdb, -⟩
  · rw [hsame]
    intro recordId record hget
    obtain ⟨seen, hseen, hle⟩ := hI recordId record hget
    exact ⟨seen, hseen, by omega⟩
  · obtain ⟨raws, hall⟩ := eachPage_handles hpages
    have hlisted := (handleAll_upsertListed hall).seenUpTo hI ht
    rcases hdb with hdb | hdb | hdb
    · rw [hdb]
      exact hlisted
    · rw [hdb]
      exact hlisted.backfillRemarks
    · rw [hdb]
      exact hlisted.backfillRemarks.ageOutRecords _

/-- **Flags equal the listing**: a run of constant total ends; if it succeeds and pages
without rows come last, what is stored equals the listing; if it fails while it lists, it
leaves all as it was. -/
theorem flags_of_reach {s : TransitDb × ℤ} (h : (outRecordRuns U).Reach s) {run : OutRecordRun}
    (ht : s.2 < run.start) {total : ℤ} (hconst : ConstantTotal run.remote total) {fuel : ℕ}
    (hfuel : (total - 1).toNat < fuel) :
    ∃ outcome db', syncOutRecords U fuel run s.1 = some (outcome, db') ∧
      (outcome = .success → run.EmptyPagesLast total → EqualsListing U run total db') ∧
      ∀ e, outcome = .failedListing e → db' = s.1 := by
  have hrun : (syncOutRecords U fuel run s.1).isSome = true := by
    rw [syncOutRecords, Option.isSome_map]
    exact isSome_eachPage hconst fuel 1 s.1 (by exact_mod_cast hfuel)
  obtain ⟨⟨outcome, db'⟩, hsync⟩ := Option.isSome_iff_exists.mp hrun
  refine ⟨outcome, db', hsync, ?_⟩
  rcases syncOutRecords_cases hsync with ⟨e, rfl, rfl⟩ | ⟨listed, hpages, hne, -, hsuccess⟩
  · exact ⟨nofun, fun _ _ => rfl⟩
  · refine ⟨fun hok hlast => ?_, fun e he => absurd he (hne e)⟩
    have hstores := handleAll_upsertListed (eachPage_ok hconst hpages)
    rw [rowsRead_eq hlast] at hstores
    rw [hsuccess hok]
    exact equalsListing hstores (seenUpTo_of_reach h) ht

end Sync

/-! ### Two listings -/

/-- A record with two units of one SKU. -/
def listedRecord (recordId : String) : ListedRecord :=
  ⟨⟨.str recordId, .null, none⟩, [⟨.null, .str "SKU", .ok (some 2), none⟩]⟩

/-- A run that is answered with the given pages. -/
def pagesRun (start : ℤ) (pages : List (List ListedRecord)) : OutRecordRun where
  start := start
  remote pageNo := .ok ⟨pages.getD (pageNo - 1) [], pages.length⟩
  warehouseIds := []
  euCountries := []
  refuses _ := none
  laterFault := none

theorem constantTotal_pagesRun (start : ℤ) (pages : List (List ListedRecord)) :
    ConstantTotal (pagesRun start pages).remote pages.length := by
  intro pageNo page h
  rw [← Except.ok.inj h]

def noTransit : TransitDb × ℤ := (⟨.empty, .empty, []⟩, 0)

theorem reach_noTransit : (outRecordRuns CharTable.ascii).Reach noTransit := .start nofun

/-- Two pages of one record each. -/
theorem flags_of_reach_two_pages : ∃ db',
    syncOutRecords CharTable.ascii 2 (pagesRun 1 [[listedRecord "A"], [listedRecord "B"]])
    noTransit.1 = some (.success, db') ∧
    EqualsListing CharTable.ascii (pagesRun 1 [[listedRecord "A"], [listedRecord "B"]]) 2 db' ∧
    (db'.records.get? "B").map InTransitRecord.isInTransit = some true := by
  obtain ⟨outcome, db', hsync, hequals, -⟩ := flags_of_reach reach_noTransit
    (show noTransit.2 < (pagesRun 1 [[listedRecord "A"], [listedRecord "B"]]).start by decide)
    (constantTotal_pagesRun 1 [[listedRecord "A"], [listedRecord "B"]])
      (show (2 - 1 : ℤ).toNat < 2 by decide)
  have hrun : (syncOutRecords CharTable.ascii 2
      (pagesRun 1 [[listedRecord "A"], [listedRecord "B"]]) noTransit.1).map
      (fun r => (r.1, (r.2.records.get? "B").map InTransitRecord.isInTransit)) =
          some (.success, some true) := by
    decide +kernel
  rw [hsync, Option.map_some] at hrun
  obtain ⟨rfl, hflag⟩ := Prod.mk.inj (Option.some.inj hrun)
  refine ⟨db', hsync, hequals rfl
    ⟨fun pageNo pageNo' h1 hlt hle hempty => ?_, fun h => absurd h (by decide)⟩, hflag⟩
  have hpage : pageNo = 1 := by
    have : (pageNo' : ℤ) ≤ 2 := hle
    omega
  subst hpage
  cases hempty

/-- The second page has no rows, the third lists a record that was stored before: it
loses its flag. -/
theorem flag_lost_after_empty_page :
    ∃ s : TransitDb × ℤ, ∃ db', (outRecordRuns CharTable.ascii).Reach s ∧
    s.2 < (pagesRun 2 [[listedRecord "A"], [], [listedRecord "B"]]).start ∧
    ConstantTotal (pagesRun 2 [[listedRecord "A"], [], [listedRecord "B"]]).remote 3 ∧
    syncOutRecords CharTable.ascii 3 (pagesRun 2 [[listedRecord "A"], [], [listedRecord "B"]]) s.1 =
    some (.success, db') ∧ (pagesRun 2 [[listedRecord "A"], [], [listedRecord "B"]]).Lists 3 "B" ∧
    (db'.records.get? "B").map InTransitRecord.isInTransit = some false := by
  have hrun : (syncOutRecords CharTable.ascii 2
      (pagesRun 1 [[listedRecord "A"], [listedRecord "B"]]) noTransit.1).bind
      (fun r => (syncOutRecords CharTable.ascii 3
        (pagesRun 2 [[listedRecord "A"], [], [listedRecord "B"]]) r.2).map
        fun r' => (r'.1, (r'.2.records.get? "B").map InTransitRecord.isInTransit)) =
            some (.success, some false) := by
    decide +kernel
  obtain ⟨⟨outcome, db₁⟩, hfirst, hsecond⟩ := Option.bind_eq_some_iff.mp hrun
  obtain ⟨⟨outcome', db'⟩, hsync, hresult⟩ := Option.map_eq_some_iff.mp hsecond
  obtain ⟨rfl, hflag⟩ := Prod.mk.inj hresult
  have hreach : (outRecordRuns CharTable.ascii).Reach (db₁, 1) :=
    .step reach_noTransit trivial ⟨by decide, rfl, 2, outcome, hfirst⟩
  have hlater : (1 : ℤ) < 2 := by decide
  refine ⟨(db₁, 1), db', hreach, hlater, constantTotal_pagesRun _ _, hsync,
    ⟨by decide, 3, by decide, by decide, ?_⟩, hflag⟩
  exact ⟨listedRecord "B", List.mem_singleton.mpr rfl, by decide⟩

end Restock
