import PoolControl.Proofs.Json.RoundTrip
import PoolControl.Watch

/-! # Settings and their data

What a batch is encoded to is decoded as that batch, in each format (`Batch.ofDatum?_toDatum`), and
is a plain datum (`Batch.isPlain_toDatum`). So its JSON text is decoded as the batch again, and
batches are told apart by their texts (`encoding_faithful`). The same holds of rules, platforms and
records.

Each of these follows the fields: a table of all fields gives every decoder the value that was
encoded for it (`fields?_table`). -/

namespace PoolControl.Settings

open Json (IsPlain ArePlain HavePlain)

/-! ### Fields -/

section Fields
variable {members : List (String × Datum)}

theorem fieldIn?_of_mem {name : String} {value : Datum} (hn : (members.map (·.1)).Nodup)
    (h : (name, value) ∈ members) : fieldIn? members name = some (some value) := by
  have hfilter : members.filter (·.1 == name) = [(name, value)] := by
    induction members with
    | nil => cases h
    | cons e members ih =>
      rw [List.map_cons, List.nodup_cons] at hn
      rcases List.mem_cons.mp h with rfl | h
      · have hother : ∀ e' ∈ members, ¬ (e'.1 == name) = true := by
          intro e' he' heq
          exact hn.1 (List.mem_map.mpr ⟨e', he', by simpa using heq⟩)
        rw [List.filter_cons, if_pos (by simp), List.filter_eq_nil_iff.mpr hother]
      · have hne : e.1 ≠ name := by
          intro heq
          exact hn.1 (List.mem_map.mpr ⟨(name, value), h, heq.symm⟩)
        rw [List.filter_cons, if_neg (by simpa using hne), ih hn.2 h]
  rw [fieldIn?, hfilter]

/-- **A table of all fields** gives the value of each. -/
theorem fields?_table (format : Format) (members : List (String × Datum))
    (hn : (members.map (·.1)).Nodup) :
    fields? format (members.map (·.1)) (.table members) = some (members.map fun e => some e.2) := by
  have hsub : ∀ sub : List (String × Datum), sub ⊆ members →
      (sub.map (·.1)).mapM (fieldIn? members) = some (sub.map fun e => some e.2) := by
    intro sub
    induction sub with
    | nil => simp
    | cons e sub ih =>
      intro h
      rw [List.cons_subset] at h
      rw [List.map_cons, List.mapM_cons, fieldIn?_of_mem hn h.1, ih h.2]
      rfl
  exact hsub members (List.Subset.refl members)

end Fields

/-! ### Values -/

theorem listOf?_list {α : Type} {read : Datum → Option α} {encode : α → Datum}
    (h : ∀ a, read (encode a) = some a) (as : List α) :
    listOf? read (.list (as.map encode)) = some as := by
  have hmap : (as.map encode).mapM read = some as := by
    induction as with
    | nil => rfl
    | cons a as ih => rw [List.map_cons, List.mapM_cons, h, ih]; rfl
  exact hmap

theorem text?_text (s : String) : (Datum.text s).text? = some s := rfl

theorem texts?_texts (ss : List String) : (Datum.texts ss).texts? = some ss :=
  listOf?_list text?_text ss

theorem optional_option {α : Type} {read : Datum → Option α} {encode : α → Datum}
    (h : ∀ a, read (encode a) = some a) (hnull : ∀ a, encode a ≠ .null) (o : Option α) :
    optional read (some (.option encode o)) = some o := by
  cases o with
  | none => rfl
  | some a =>
    unfold optional
    split
    · next heq => cases heq
    · next heq => exact absurd (Option.some.inj heq) (hnull a)
    · next value _ heq =>
      rw [← Option.some.inj heq]
      simp [Datum.option, h]

theorem int64?_integer (n : Int64) : int64? (.integer n.toInt) = some n := by
  simp only [int64?, Datum.integer?, Option.bind_some]
  rw [if_pos ⟨n.minValue_le_toInt, n.toInt_le⟩, Int64.ofInt_toInt]

theorem uint64?_nat (n : UInt64) : uint64? (.nat n.toNat) = some n := by
  have hlt := n.toNat_lt
  have hword : (Datum.nat n.toNat).word? = some n.toNat := by
    simp only [Datum.word?, Datum.nat, Datum.natUpTo?, UInt64.size]
    rw [if_pos (by omega)]
    rfl
  rw [uint64?, hword, Option.map_some, UInt64.ofNat_toNat]

theorem uint32?_nat (n : UInt32) : uint32? (.nat n.toNat) = some n := by
  have hlt := n.toNat_lt
  have hword : (Datum.nat n.toNat).natUpTo? (UInt32.size - 1) = some n.toNat := by
    simp only [Datum.nat, Datum.natUpTo?, UInt32.size]
    rw [if_pos (by omega)]
    rfl
  rw [uint32?, hword, Option.map_some, UInt32.ofNat_toNat]

/-! ### Plain data -/

theorem isPlain_list {α : Type} {encode : α → Datum} (h : ∀ a, IsPlain (encode a)) (as : List α) :
    IsPlain (.list (as.map encode)) := by
  induction as with
  | nil => trivial
  | cons a as ih => exact ⟨h a, ih⟩

theorem isPlain_text (s : String) : IsPlain (.text s) := trivial

theorem isPlain_texts (ss : List String) : IsPlain (.texts ss) := isPlain_list isPlain_text ss

theorem isPlain_option {α : Type} {encode : α → Datum} (h : ∀ a, IsPlain (encode a))
    (o : Option α) : IsPlain (.option encode o) := by
  cases o with
  | none => trivial
  | some a => exact h a

theorem isPlain_int64 (n : Int64) : IsPlain (.integer n.toInt) := by
  have hlt := n.toInt_lt
  refine ⟨n.minValue_le_toInt, ?_⟩
  simp only [UInt64.size]
  omega

theorem isPlain_nat {n : Nat} (h : n < UInt64.size) : IsPlain (.nat n) := by
  have hmin : Int64.minValue.toInt ≤ 0 := by decide
  exact ⟨by omega, Int.ofNat_lt.mpr h⟩

theorem isPlain_uint64 (n : UInt64) : IsPlain (.nat n.toNat) := isPlain_nat n.toNat_lt

theorem isPlain_uint32 (n : UInt32) : IsPlain (.nat n.toNat) :=
  isPlain_nat (Nat.lt_trans n.toNat_lt (by decide))

/-! ### Platforms and rules -/

theorem Platform.ofDatum?_toDatum (format : Format) (p : Platform) :
    ofDatum? format p.toDatum = some p := by
  have hfields := fields?_table format
    [("platform", .text p.name), ("webhook_url", .option .text p.webhookUrl),
      ("receivers", .texts p.receivers)] (by simp)
  have hurl := optional_option text?_text nofun p.webhookUrl
  have hreceivers := texts?_texts p.receivers
  unfold ofDatum? toDatum fieldNames
  simp only [List.map_cons, List.map_nil] at hfields
  simp only [hfields, hurl, withDefault, hreceivers, Datum.text?, Bind.bind, Option.bind_some]

theorem Platform.isPlain_toDatum (p : Platform) : IsPlain p.toDatum :=
  ⟨isPlain_text _, isPlain_option isPlain_text _, isPlain_texts _, trivial⟩

theorem NoticeKind.ofDatum?_name (format : Format) (k : NoticeKind) :
    ofDatum? format (.text k.name) = some k := by
  cases k <;> rfl

theorem QueueKind.ofDatum?_name (format : Format) (k : QueueKind) :
    ofDatum? format (.text k.name) = some k := by
  cases k <;> rfl

theorem KeepAliveUnit.ofDatum?_name (format : Format) (u : KeepAliveUnit) :
    ofDatum? format (.text u.name) = some u := by
  cases u <;> rfl

theorem NotifyRule.ofDatum?_toDatum (format : Format) (r : NotifyRule) :
    ofDatum? format r.toDatum = some r := by
  have hfields := fields?_table format
    [("type", .text r.kind.name), ("enabled", .bool r.enabled),
      ("threshold", .option (fun t => .nat t.toNat) r.threshold),
      ("interval", .option (fun i => .nat i.toNat) r.interval),
      ("platforms", .texts r.platforms)] (by simp)
  have hkind := NoticeKind.ofDatum?_name format r.kind
  have hthreshold := optional_option uint32?_nat nofun r.threshold
  have hinterval := optional_option uint64?_nat nofun r.interval
  have hplatforms := texts?_texts r.platforms
  unfold ofDatum? toDatum fieldNames
  simp only [List.map_cons, List.map_nil] at hfields
  simp only [hfields, hkind, hthreshold, hinterval, withDefault, hplatforms, Datum.bool?, Bind.bind,
    Option.bind_some]

theorem NotifyRule.isPlain_toDatum (r : NotifyRule) : IsPlain r.toDatum :=
  ⟨isPlain_text _, trivial, isPlain_option isPlain_uint32 _, isPlain_option isPlain_uint64 _,
    isPlain_texts _, trivial⟩

/-! ### Records and batches -/

theorem Record.ofDatum?_toDatum [Machine] (format : Format) (r : Record) :
    ofDatum? format r.toDatum = some r := by
  have hfields := fields?_table format
    [("thread_pool_name", .text r.name), ("core_pool_size", .integer r.coreSize.toInt),
      ("maximum_pool_size", .integer r.maxSize.toInt),
      ("queue_capacity", .nat r.queueCapacity.toNat), ("queue_type", .text r.queueKind.name),
      ("keep_alive_time", .integer r.keepAliveTime.toInt), ("unit", .text r.keepAliveUnit.name),
      ("allow_core_thread_timeout", .bool r.coreTimeout),
      ("rejected_handler_type", .text r.policyName),
      ("wait_for_tasks_to_complete_on_shutdown", .bool r.waitOnShutdown),
      ("await_termination_seconds", .nat r.awaitSeconds.toNat),
      ("notify_items", .list (r.rules.map NotifyRule.toDatum))] (by simp)
  have hqueue := QueueKind.ofDatum?_name format r.queueKind
  have hunit := KeepAliveUnit.ofDatum?_name format r.keepAliveUnit
  have hrules := listOf?_list (NotifyRule.ofDatum?_toDatum format) r.rules
  unfold ofDatum? toDatum fieldNames
  simp only [List.map_cons, List.map_nil] at hfields
  simp only [hfields, hqueue, hunit, hrules, withDefault, int64?_integer, uint64?_nat,
    Datum.text?, Datum.bool?, Bind.bind, Option.bind_some]

theorem Record.isPlain_toDatum (r : Record) : IsPlain r.toDatum :=
  ⟨isPlain_text _, isPlain_int64 _, isPlain_int64 _, isPlain_uint64 _, isPlain_text _,
    isPlain_int64 _, isPlain_text _, trivial, isPlain_text _, trivial, isPlain_uint64 _,
    isPlain_list NotifyRule.isPlain_toDatum _, trivial⟩

/-- **What a batch is encoded to** is decoded as the batch. -/
theorem Batch.ofDatum?_toDatum [Machine] (format : Format) (b : Batch) :
    ofDatum? format b.toDatum = some b := by
  have hfields := fields?_table format
    [("enabled", .bool b.enabled), ("platforms", .list (b.platforms.map Platform.toDatum)),
      ("executors", .list (b.records.map Record.toDatum))] (by simp)
  have hplatforms := listOf?_list (Platform.ofDatum?_toDatum format) b.platforms
  have hrecords := listOf?_list (Record.ofDatum?_toDatum format) b.records
  unfold ofDatum? toDatum fieldNames
  simp only [List.map_cons, List.map_nil] at hfields
  simp only [hfields, hplatforms, hrecords, withDefault, Datum.bool?, Bind.bind, Option.bind_some]

theorem Batch.isPlain_toDatum (b : Batch) : IsPlain b.toDatum :=
  ⟨trivial, isPlain_list Platform.isPlain_toDatum _, isPlain_list Record.isPlain_toDatum _,
    trivial⟩

/-! ### Texts -/

/-- What a JSON text is decoded as. -/
def decode? {α : Type} (read : Datum → Option α) (text : String) : Option α :=
  (Json.read? text).bind read

/-- **The text of a value is decoded as the value**, if its datum is and is a plain one. -/
theorem decode?_write {α : Type} {read : Datum → Option α} {encode : α → Datum}
    (h : ∀ a, read (encode a) = some a) (hplain : ∀ a, IsPlain (encode a)) (a : α) :
    decode? read (Json.write (encode a)) = some a := by
  rw [decode?, Json.read?_write (hplain a), Option.bind_some, h]

/-- **Batches are told apart by their texts.** -/
theorem Batch.write_toDatum_injective :
    Function.Injective fun b : Batch => Json.write b.toDatum := by
  intro b b' h
  have hdatum : b.toDatum = b'.toDatum :=
    (Json.write_inj b.isPlain_toDatum b'.isPlain_toDatum).mp h
  have hdecoded := Batch.ofDatum?_toDatum .json b
  rw [hdatum, Batch.ofDatum?_toDatum] at hdecoded
  exact (Option.some.inj hdecoded).symm

/-- **The encoding of settings is faithful.** The JSON text of a rule, a platform, a record or a
batch is decoded as that very value, whatever its texts, numbers, lists and unset fields are. So two
batches have the same text, which is what a watch tells them apart by, only if they are equal. -/
theorem encoding_faithful [Machine] :
    (∀ r : NotifyRule, decode? (NotifyRule.ofDatum? .json) (Json.write r.toDatum) = some r) ∧
    (∀ p : Platform, decode? (Platform.ofDatum? .json) (Json.write p.toDatum) = some p) ∧
    (∀ r : Record, decode? (Record.ofDatum? .json) (Json.write r.toDatum) = some r) ∧
    (∀ b : Batch, decode? (Batch.ofDatum? .json) (Json.write b.toDatum) = some b) ∧
    ∀ b b' : Batch, Watch.fingerprint b = Watch.fingerprint b' ↔ b = b' :=
  ⟨decode?_write (NotifyRule.ofDatum?_toDatum .json) NotifyRule.isPlain_toDatum,
    decode?_write (Platform.ofDatum?_toDatum .json) Platform.isPlain_toDatum,
    decode?_write (Record.ofDatum?_toDatum .json) Record.isPlain_toDatum,
    decode?_write (Batch.ofDatum?_toDatum .json) Batch.isPlain_toDatum,
    fun _ _ => Batch.write_toDatum_injective.eq_iff⟩

end PoolControl.Settings
