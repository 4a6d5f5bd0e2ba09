import EntityStore.Proofs.System.Sessions

/-! # Commits are atomic

A commit takes its version before it applies its writes, and each write may still be refused
for its kind.  That none ever is hangs on what the sessions remember: in every state that a
run reaches, it lies under registered kinds.  So a commit applies all its writes or none.

* `Store.AllApplied`           all of some writes under one new version, and nothing else
* `Store.AllOrNone`            a commit that changed nothing, or applied all of its writes
* `Session.allOrNone_commit`   the commit of an open transaction is of this sort
* `System.commit_atomic`       so no commit stops midway, in any state that a run reaches -/

namespace EntityStore

namespace Store

variable {store store' : Store} {writes : WriteSet}

/-- The second store is the first one with all of some writes applied under one new version,
    and with nothing else changed. -/
structure AllApplied (store store' : Store) (writes : WriteSet) : Prop where
  kinds_eq : store'.kinds = store.kinds
  version_eq : store'.version = store.version + 1
  put : ∀ (key : RecordKey) (body : Json), writes[key]? = some (some body) →
    store'.record? key = some ⟨store'.version, body⟩
  deleted : ∀ key : RecordKey, writes[key]? = some none → store'.record? key = none
  kept : ∀ key : RecordKey, key ∉ writes → store'.record? key = store.record? key

/-- A commit of some writes that was all or nothing. -/
inductive AllOrNone (store : Store) (writes : WriteSet) (out : Outcome Session Unit) : Prop where
  /-- It failed, and the store is as it was. -/
  | refused (error : Error) (result_eq : out.result = .error error) (store_eq : out.store = store)
  /-- There was nothing to write, and the store is as it was. -/
  | empty (result_eq : out.result = .ok ()) (writes_eq : writes = ∅) (store_eq : out.store = store)
  /-- Everything was written. -/
  | applied (result_eq : out.result = .ok ()) (writes_ne : writes ≠ ∅)
      (all : store.AllApplied out.store writes)

/-- Writes that took a version were all applied. -/
theorem Applied.allApplied (h : store.Applied store' writes)
    (hversion : store'.version = store.version + 1) : store.AllApplied store' writes where
  kinds_eq := kinds_congr h.kind?_eq
  version_eq := hversion
  put key body hkey := by
    rw [h.record?_eq key, hkey]
    rfl
  deleted key hkey := by
    rw [h.record?_eq key, hkey]
    rfl
  kept key hkey := by rw [h.record?_eq key, Std.ExtTreeMap.getElem?_eq_none hkey]

end Store

/-- Writes under registered kinds are applied up to the last one. -/
theorem Transaction.Within.writeAll {t : Transaction} {store : Store} (h : t.Within store) :
    store.nextVersion.writeAll t.writes.toList =
      (.ok (), store.nextVersion.putAll t.writes.toList) := by
  apply Store.writeAll_eq
  intro write hwrite
  exact h.isRegistered (Std.ExtTreeMap.mem_toList_iff_getElem?_eq_some.1 hwrite)

/-- The commit of an open transaction is all or nothing, as long as what it holds back lies
    under registered kinds. -/
theorem Session.allOrNone_commit {t : Transaction} {store : Store} (ht : t.status = .active)
    (hwithin : t.Within store) :
    store.AllOrNone t.writes ((Session.mk (some t)).commit store) := by
  rcases commit_cases ht hwithin with ⟨reason, h⟩ | ⟨h, -⟩
  · rw [h]
    exact .refused _ rfl rfl
  · -- a commit that is not refused writes nothing or all
    rw [h]
    by_cases hempty : t.writes = ∅
    · exact .empty rfl hempty (if_pos (Std.ExtTreeMap.isEmpty_iff.2 hempty))
    · refine .applied rfl hempty ?_
      rw [if_neg fun h => hempty (Std.ExtTreeMap.isEmpty_iff.1 h)]
      exact (Store.applied_putAll hwithin.writes).allApplied (Store.version_putAll _ _)

namespace System

variable {w : System}

/-- What a session remembers lies under registered kinds. -/
theorem Within.isRegistered (hw : w.Within) {n : Nat} {t : Transaction}
    (hs : w.session? n = some ⟨some t⟩) {key : RecordKey} (hkey : key ∈ t.reads ∨ key ∈ t.writes) :
    w.store.isRegistered key.kind = true :=
  hkey.elim ((hw n _ hs t rfl).reads key) ((hw n _ hs t rfl).writes key)

/-- While one is left, the next version is the next number. -/
theorem version_succ {rs : List Request} (hroom : init.handedOut rs + 1 < UInt64.size) :
    ((init.run rs).store.version + 1).toNat = (init.run rs).store.version.toNat + 1 := by
  -- the version of the store is the number of those handed out
  obtain ⟨steps, hhosts, hhanded⟩ := hosts_run rs
  have hzero : World.init.store.version.toNat = 0 := rfl
  have hversion := (World.sound_run World.sound_init steps (by omega)).2
  rw [hhosts.store_eq] at hversion
  have hlt : (init.run rs).store.version.toNat + 1 < UInt64.size := by omega
  rw [UInt64.toNat_add]
  exact Nat.mod_eq_of_lt hlt

/-- In every state that a run reaches, the commit of an open transaction is all or nothing,
    and the version that it takes is the next number while one is left.  No commit stops
    midway, as all that any session remembers lies under registered kinds. -/
theorem commit_atomic {rs : List Request} {n : Nat} {t : Transaction}
    (hs : (init.run rs).session? n = some ⟨some t⟩) (hactive : t.status = .active) :
    (init.run rs).store.AllOrNone t.writes
        ((Session.mk (some t)).commit (init.run rs).store) ∧
      (init.handedOut rs + 1 < UInt64.size →
        ((init.run rs).store.version + 1).toNat = (init.run rs).store.version.toNat + 1) ∧
      ∀ (m : Nat) (t' : Transaction), (init.run rs).session? m = some ⟨some t'⟩ →
        (∀ key, key ∈ t'.reads ∨ key ∈ t'.writes →
          (init.run rs).store.isRegistered key.kind = true) ∧
        ((init.run rs).store.nextVersion.writeAll t'.writes.toList).1 = .ok () := by
  have hwithin : (init.run rs).Within := within_run within_init rs
  refine ⟨Session.allOrNone_commit hactive (hwithin n _ hs t rfl), version_succ, ?_⟩
  intro m t' ht'
  refine ⟨fun key hkey => hwithin.isRegistered ht' hkey, ?_⟩
  rw [(hwithin m _ ht' t' rfl).writeAll]

/-- Tags, of another kind than notes. -/
def tag : EntityType Json := Schema.entityType ⟨⟨"Tag", "notes::Tag"⟩, [("id", .text)]⟩

/-- A transaction replaces a note and deletes another, adds a tag, and deletes one that is
    not there. -/
def sorting : List Request :=
  [⟨.store (.register Note.type.kind)⟩, ⟨.registry 0 (.create tag {})⟩,
    ⟨.access (.put ⟨Note.type, {}⟩ (Note.of "a" "one"))⟩,
    ⟨.access (.put ⟨Note.type, {}⟩ (Note.of "b" "two"))⟩, ⟨.enter 0 .begun⟩,
    ⟨.act 0 (.operate (.save Note.type (Note.of "b" "three")))⟩,
    ⟨.act 0 (.wrap (.handle true))⟩, ⟨.act 0 (.operate (.delete Note.type "a"))⟩,
    ⟨.act 0 (.wrap .transaction)⟩, ⟨.act 0 (.wrap .caller)⟩,
    ⟨.act 0 (.access (.put ⟨tag, {}⟩ (.obj [("id", .str "new")])))⟩,
    ⟨.act 0 (.access (.delete ⟨tag, {}⟩ "old"))⟩]

/-- A commit of four writes applies all of them. -/
theorem commit_atomic_sorting :
    ∃ t, (init.run sorting).session? 0 = some ⟨some t⟩ ∧ t.status = .active ∧
      (init.run sorting).store.AllApplied
        ((Session.mk (some t)).commit (init.run sorting).store).store t.writes ∧
      t.writes.size = 4 := by
  have hsome : (((init.run sorting).session? 0).bind Session.transaction).isSome = true := by
    decide +kernel
  obtain ⟨⟨transaction⟩, hs, htransaction⟩ :=
    Option.bind_eq_some_iff.1 (Option.some_get hsome).symm
  obtain rfl : transaction = _ := htransaction
  have hactive :
      ((((init.run sorting).session? 0).bind Session.transaction).get hsome).status = .active := rfl
  have hsize :
      ((((init.run sorting).session? 0).bind Session.transaction).get hsome).writes.size = 4 := rfl
  -- no one else has written, so the commit succeeds
  have hok : ((Session.mk (some
      ((((init.run sorting).session? 0).bind Session.transaction).get hsome))).commit
      (init.run sorting).store).result = .ok () := rfl
  refine ⟨_, hs, hactive, ?_, hsize⟩
  -- a commit that succeeds with something to write has written it
  cases (commit_atomic hs hactive).1 with
  | refused error result_eq => cases hok.symm.trans result_eq
  | empty _ writes_eq =>
    rw [writes_eq, Std.ExtTreeMap.size_empty] at hsize
    cases hsize
  | applied _ _ all => exact all

end System

end EntityStore
