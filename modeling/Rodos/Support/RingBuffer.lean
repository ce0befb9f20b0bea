import Rodos.Library.Cyclic
import Rodos.Library.DropOldest
import Rodos.Library.Runs
import Mathlib.Algebra.Group.Nat.Defs

/-! `RingBuffer`: a pool of entries that `put` goes round and `get` follows. When the pool is full
of unread entries, `put` overwrites the oldest of them. -/
namespace Rodos.Support
open Library Library.Cyclic

/-- The template argument `poolSize`, a `uint32_t`. -/
structure PoolSize where
  val : Nat
  pos : 0 < val
  lt : val < 2 ^ 32

def UINT32_MAX : Int := 0xFFFFFFFF

/-- The indices and `occupiedCnt` stay below or at `poolSize`, so they do not wrap. -/
structure RingBuffer (T : Type) where
  vals : Int → T
  writeIndex : Int := 0
  readIndex : Int := 0
  currentWrite : Int := UINT32_MAX
  writeCnt : UInt64 := 0
  readCnt : UInt64 := 0
  occupiedCnt : Nat := 0

namespace RingBuffer

variable {T : Type} (poolSize : PoolSize)

/-- `if (index >= poolSize) index = 0;` -/
def wrap (index : Int) : Int := if index ≥ poolSize.val then 0 else index

def clear (self : RingBuffer T) : RingBuffer T :=
  { self with
    writeIndex := 0
    readIndex := 0
    currentWrite := UINT32_MAX
    writeCnt := 0
    readCnt := 0
    occupiedCnt := 0 }

/-- `currentWrite` is the index of the entry only as long as the entry is being written. -/
def put (self : RingBuffer T) (newdata : T) : RingBuffer T :=
  { self with
    vals := Function.update self.vals self.writeIndex newdata
    writeIndex := wrap poolSize (self.writeIndex + 1)
    occupiedCnt := if self.occupiedCnt < poolSize.val then self.occupiedCnt + 1
      else self.occupiedCnt
    writeCnt := self.writeCnt + 1
    currentWrite := UINT32_MAX }

/-- Where `get` reads. -/
def nextRead (self : RingBuffer T) : Int :=
  let readIndex :=
    if self.readIndex = self.currentWrite then self.readIndex + 1 else self.readIndex
  let readIndex := wrap poolSize readIndex
  if self.writeCnt.toNat < poolSize.val ∧ readIndex ≥ self.writeIndex then 0 else readIndex

/-- The value stored in `fromRing`, if `get` returns true. -/
def get (self : RingBuffer T) : Option T × RingBuffer T :=
  if self.writeCnt = 0 then (none, self)
  else
    let readIndex := self.nextRead poolSize
    (some (self.vals readIndex), { self with
      readIndex := wrap poolSize (readIndex + 1)
      occupiedCnt := if self.occupiedCnt > 0 then self.occupiedCnt - 1 else self.occupiedCnt
      readCnt := self.readCnt + 1 })

inductive Access (T : Type) where
  | put (newdata : T)
  | get
  | clear

/-- A ring and the entries put into it since it was cleared. Those pending in the account are
retained and unread. -/
structure Session (T : Type) where
  ring : RingBuffer T
  account : Account T

def Session.start (vals : Int → T) : Session T := ⟨{ vals := vals }, {}⟩

def step (session : Session T) : Access T → Option (Session T)
  | .put newdata =>
    some ⟨session.ring.put poolSize newdata, session.account.put poolSize.val newdata⟩
  | .get => some ⟨(session.ring.get poolSize).2, session.account.get⟩
  | .clear => some ⟨session.ring.clear, {}⟩

/-- `get` is only called when unread entries are retained. -/
def HasUnread (session : Session T) : Access T → Prop
  | .get => session.account.pending ≠ []
  | .put _ | .clear => True

/-- How many unread entries have been overwritten. -/
def overwritten (account : Account T) : Nat := (account.withFate .dropped).length

/-- As many unread entries have been overwritten as make full rounds of the pool, and `writeCnt` has
not wrapped so that it looks as if the pool had not been filled yet. -/
def InStep (session : Session T) : Access T → Prop
  | .get =>
    overwritten session.account % poolSize.val = 0 ∧
      (session.account.values.length < 2 ^ 64 ∨
        poolSize.val ≤ session.account.values.length % 2 ^ 64)
  | .put _ | .clear => True

def ReturnsOldest (session : Session T) : Access T → Prop
  | .get => (session.ring.get poolSize).1 = session.account.pending.head?
  | .put _ | .clear => True

def CountsUnread (session : Session T) : Prop :=
  session.ring.occupiedCnt = session.account.pending.length ∧
    session.account.pending.length ≤ poolSize.val

/-! ### The state of the ring -/

/-- The retained entries lie right in front of `writeIndex`. `readIndex` is behind the oldest of
them by as many cells as entries have been overwritten. -/
structure Tracks (ring : RingBuffer T) (account : Account T) : Prop where
  writeIndex_nonneg : 0 ≤ ring.writeIndex
  writeIndex_lt : ring.writeIndex < poolSize.val
  room : account.pending.length ≤ poolSize.val
  occupiedCnt_eq : ring.occupiedCnt = account.pending.length
  cells_eq : cells ring.vals poolSize.val (ring.writeIndex - account.pending.length)
    account.pending.length = account.pending
  readIndex_eq : ring.readIndex =
    (ring.writeIndex - account.pending.length - overwritten account) % poolSize.val
  currentWrite_eq : ring.currentWrite = UINT32_MAX
  writeCnt_eq : ring.writeCnt.toNat = account.values.length % 2 ^ 64
  notFilled : account.values.length < poolSize.val →
    ring.writeIndex = account.values.length ∧ overwritten account = 0

theorem toNat_count (count : UInt64) : (count + 1).toNat = (count.toNat + 1) % 2 ^ 64 :=
  UInt64.toNat_add count 1

variable {poolSize} {ring : RingBuffer T} {account : Account T}

theorem wrap_eq {index : Int} (hnonneg : 0 ≤ index) (hle : index ≤ poolSize.val) :
    wrap poolSize index = index % poolSize.val := by
  unfold wrap
  split
  · next hend =>
    have hsame : index = poolSize.val := by omega
    rw [hsame, Int.emod_self]
  · exact (Int.emod_eq_of_lt hnonneg (by omega)).symm

theorem tracks_start (vals : Int → T) :
    Tracks poolSize (Session.start vals).ring (Session.start vals).account := by
  have hpos := poolSize.pos
  refine ⟨Int.le_refl 0, by simpa [Session.start] using hpos, Nat.zero_le _, rfl, rfl, ?_, rfl, rfl,
    fun _ => ⟨rfl, rfl⟩⟩
  simp [Session.start, overwritten, Account.withFate]

theorem Tracks.clear (ring : RingBuffer T) : Tracks poolSize ring.clear {} :=
  tracks_start ring.vals

/-! ### Putting an entry -/

/-- Storing an entry at `writeIndex` when a cell is free there. -/
theorem cells_put {pending : List T} (hnonneg : 0 ≤ ring.writeIndex)
    (hlt : ring.writeIndex < poolSize.val) (hroom : pending.length < poolSize.val)
    (hcells : cells ring.vals poolSize.val (ring.writeIndex - pending.length) pending.length =
      pending) (newdata : T) :
    cells (ring.put poolSize newdata).vals poolSize.val
      ((ring.put poolSize newdata).writeIndex - (pending ++ [newdata]).length)
      (pending ++ [newdata]).length = pending ++ [newdata] := by
  have hend : (ring.writeIndex - pending.length + pending.length) % poolSize.val =
      ring.writeIndex := by
    rw [Int.sub_add_cancel, Int.emod_eq_of_lt hnonneg hlt]
  have hstart : ((ring.put poolSize newdata).writeIndex - (pending ++ [newdata]).length) %
      poolSize.val = (ring.writeIndex - pending.length) % poolSize.val := by
    show (wrap poolSize (ring.writeIndex + 1) - (pending ++ [newdata]).length) % _ = _
    rw [wrap_eq (by omega) (by omega), Int.emod_sub_emod, List.length_append]
    congr 1
    simp only [List.length_singleton]
    omega
  have hstored := @cells_store_end _ ring.vals poolSize.val (ring.writeIndex - pending.length)
    pending.length newdata (by omega)
  rw [hend, hcells] at hstored
  rw [← cells_emod, hstart, cells_emod, List.length_append]
  exact hstored

/-- Dropping the oldest entry leaves the others where they are. -/
theorem cells_drop {oldest : T} {newer : List T}
    (hcells : cells ring.vals poolSize.val (ring.writeIndex - (oldest :: newer).length)
      (oldest :: newer).length = oldest :: newer) :
    ring.vals ((ring.writeIndex - (oldest :: newer).length) % poolSize.val) = oldest ∧
      cells ring.vals poolSize.val (ring.writeIndex - newer.length) newer.length = newer := by
  rw [List.length_cons, cells_cons] at hcells
  obtain ⟨holdest, hnewer⟩ := List.cons.inj hcells
  have hstart : ring.writeIndex - (newer.length + 1 : Nat) + 1 =
      ring.writeIndex - newer.length := by
    omega
  rw [hstart] at hnewer
  exact ⟨holdest, hnewer⟩

/-- `put` moves `writeIndex` by one cell, and with it the place from which `readIndex` counts. -/
theorem readIndex_put {unread lost unread' lost' : Nat} (hnonneg : 0 ≤ ring.writeIndex)
    (hlt : ring.writeIndex < poolSize.val) (hmoved : unread' + lost' = unread + lost + 1)
    (newdata : T) :
    (ring.writeIndex - unread - lost) % poolSize.val =
      ((ring.put poolSize newdata).writeIndex - unread' - lost') % poolSize.val := by
  show _ = (wrap poolSize (ring.writeIndex + 1) - unread' - lost') % _
  rw [wrap_eq (by omega) (by omega), Int.sub_sub _ (unread' : Int), Int.emod_sub_emod]
  congr 1
  omega

/-- A free cell takes the entry. -/
theorem Tracks.push (h : Tracks poolSize ring account)
    (hroom : account.pending.length < poolSize.val) (newdata : T) :
    Tracks poolSize (ring.put poolSize newdata) (account.push newdata) := by
  have hnonneg := h.writeIndex_nonneg
  have hlt := h.writeIndex_lt
  have hwrite : (ring.put poolSize newdata).writeIndex = (ring.writeIndex + 1) % poolSize.val :=
    wrap_eq (by omega) (by omega)
  have hcount : (account.push newdata).values.length = account.values.length + 1 := by
    rw [Account.values_push, List.length_append, List.length_singleton]
  have hunread : (account.push newdata).pending.length = account.pending.length + 1 :=
    List.length_append
  refine ⟨?_, ?_, ?_, ?_, ?_, ?_, rfl, ?_, ?_⟩
  · rw [hwrite]
    exact Int.emod_nonneg _ (by omega)
  · rw [hwrite]
    exact Int.emod_lt_of_pos _ (by omega)
  · rw [hunread]
    exact hroom
  · have hoccupied := h.occupiedCnt_eq
    show (if ring.occupiedCnt < poolSize.val then _ else _) = _
    rw [if_pos (by omega), hunread, hoccupied]
  · exact cells_put hnonneg hlt hroom h.cells_eq newdata
  · show ring.readIndex = _
    rw [h.readIndex_eq]
    apply readIndex_put hnonneg hlt
    rw [hunread]
    exact Nat.add_right_comm _ 1 _
  · show (ring.writeCnt + 1).toNat = _
    rw [toNat_count, h.writeCnt_eq, hcount, Nat.mod_add_mod]
  · intro hfew
    rw [hcount] at hfew ⊢
    obtain ⟨hindex, hnone⟩ := h.notFilled (by omega)
    rw [hwrite, Int.emod_eq_of_lt (by omega) (by omega)]
    exact ⟨by omega, hnone⟩

/-- Without its oldest unread entry a full pool has a free cell. -/
theorem Tracks.drop {oldest : T} {newer : List T} (h : Tracks poolSize ring account)
    (hpending : account.pending = oldest :: newer)
    (hfull : account.pending.length = poolSize.val) :
    Tracks poolSize { ring with occupiedCnt := newer.length } (account.settle .dropped) := by
  have hvalues := account.length_values
  have hcells := h.cells_eq
  have hread := h.readIndex_eq
  rw [hpending] at hcells hread
  rw [List.length_cons] at hread
  have hnewer : newer.length + 1 = poolSize.val := by rw [← hfull, hpending, List.length_cons]
  have hafter : (account.settle .dropped).pending = newer := by
    rw [Account.settle_of_cons _ hpending]
  have hlost : overwritten (account.settle .dropped) = overwritten account + 1 := by
    rw [overwritten, Account.withFate_settle _ _ hpending, if_pos rfl, List.length_append]
    rfl
  refine ⟨h.writeIndex_nonneg, h.writeIndex_lt, ?_, ?_, ?_, ?_, h.currentWrite_eq, ?_, ?_⟩
  · rw [hafter]
    omega
  · rw [hafter]
  · rw [hafter]
    exact (cells_drop hcells).2
  · show ring.readIndex = (ring.writeIndex - _ - _) % _
    rw [hread, hafter, hlost]
    congr 1
    omega
  · rw [Account.values_settle]
    exact h.writeCnt_eq
  · rw [Account.values_settle]
    omega

theorem put_of_full {newer : Nat} (hoccupied : ring.occupiedCnt = newer + 1)
    (hfull : newer + 1 = poolSize.val) (newdata : T) :
    ring.put poolSize newdata = { ring with occupiedCnt := newer }.put poolSize newdata := by
  unfold put
  simp only [hoccupied, if_neg (show ¬ newer + 1 < poolSize.val by omega),
    if_pos (show newer < poolSize.val by omega)]

theorem Tracks.put (h : Tracks poolSize ring account) (newdata : T) :
    Tracks poolSize (ring.put poolSize newdata) (account.put poolSize.val newdata) := by
  have hroom := h.room
  by_cases hfull : account.pending.length = poolSize.val
  · obtain ⟨oldest, newer, hpending⟩ := List.exists_cons_of_length_pos (hfull ▸ poolSize.pos)
    have hnewer : newer.length + 1 = poolSize.val := by rw [← hfull, hpending, List.length_cons]
    have hoccupied : ring.occupiedCnt = newer.length + 1 := by
      rw [h.occupiedCnt_eq, hpending, List.length_cons]
    have hafter : (account.settle .dropped).pending = newer := by
      rw [Account.settle_of_cons _ hpending]
    rw [Account.put, if_pos hfull, put_of_full hoccupied hnewer]
    apply (h.drop hpending hfull).push
    rw [hafter]
    omega
  · rw [Account.put, if_neg hfull]
    exact h.push (by omega) newdata

/-! ### Getting an entry -/

section Get

variable {oldest : T} {newer : List T}

/-- As long as `writeCnt` does not look as if the pool had not been filled, `get` reads where
`readIndex` is. -/
theorem nextRead_eq (h : Tracks poolSize ring account)
    (hpending : account.pending = oldest :: newer)
    (hcounter : account.values.length < 2 ^ 64 ∨
      poolSize.val ≤ account.values.length % 2 ^ 64) :
    ring.writeCnt ≠ 0 ∧ ring.nextRead poolSize = ring.readIndex := by
  have hpos := poolSize.pos
  have hlt := poolSize.lt
  have hcount := h.writeCnt_eq
  have hvalues := account.length_values
  rw [hpending, List.length_cons] at hvalues
  have hnonneg : 0 ≤ ring.readIndex := by
    rw [h.readIndex_eq]
    exact Int.emod_nonneg _ (by omega)
  have hinside : ring.readIndex < poolSize.val := by
    rw [h.readIndex_eq]
    exact Int.emod_lt_of_pos _ (by omega)
  constructor
  · intro hzero
    rw [hzero] at hcount
    change 0 = _ at hcount
    omega
  · have hother : ring.readIndex ≠ ring.currentWrite := by
      rw [h.currentWrite_eq, UINT32_MAX]
      omega
    have hwrap : wrap poolSize ring.readIndex = ring.readIndex := by
      rw [wrap, if_neg (by omega)]
    unfold nextRead
    simp only [if_neg hother, hwrap]
    apply if_neg
    rintro ⟨hfew, hbehind⟩
    -- the pool has never been filled, so the unread entries lie between the two indices
    obtain ⟨hindex, hnone⟩ := h.notFilled (by omega)
    have hread := h.readIndex_eq
    rw [hpending, List.length_cons, hnone, hindex, Int.emod_eq_of_lt (by omega) (by omega)] at hread
    omega

theorem get_eq (h : Tracks poolSize ring account) (hpending : account.pending = oldest :: newer)
    (hcounter : account.values.length < 2 ^ 64 ∨
      poolSize.val ≤ account.values.length % 2 ^ 64) :
    ring.get poolSize = (some (ring.vals ring.readIndex), { ring with
      readIndex := wrap poolSize (ring.readIndex + 1)
      occupiedCnt := newer.length
      readCnt := ring.readCnt + 1 }) := by
  obtain ⟨hwritten, hread⟩ := nextRead_eq h hpending hcounter
  have hoccupied : ring.occupiedCnt = newer.length + 1 := by
    rw [h.occupiedCnt_eq, hpending, List.length_cons]
  rw [get, if_neg hwritten, hread, if_pos (by omega), hoccupied, Nat.add_sub_cancel]

theorem Tracks.get (h : Tracks poolSize ring account) (hpending : account.pending = oldest :: newer)
    (hcounter : account.values.length < 2 ^ 64 ∨
      poolSize.val ≤ account.values.length % 2 ^ 64) :
    Tracks poolSize (ring.get poolSize).2 account.get := by
  have hpos := poolSize.pos
  have hroom := h.room
  have hcells := h.cells_eq
  have hread := h.readIndex_eq
  rw [hpending] at hroom hcells hread
  rw [List.length_cons] at hroom hread
  have hget : account.get.pending = newer := by
    rw [Account.get, Account.settle_of_cons _ hpending]
  have hlost : overwritten account.get = overwritten account := by
    rw [overwritten, Account.get, Account.withFate_settle _ _ hpending, if_neg (by decide),
      List.append_nil]
    rfl
  have hnonneg : 0 ≤ ring.readIndex := by
    rw [hread]
    exact Int.emod_nonneg _ (by omega)
  have hinside : ring.readIndex < poolSize.val := by
    rw [hread]
    exact Int.emod_lt_of_pos _ (by omega)
  rw [get_eq h hpending hcounter]
  refine ⟨h.writeIndex_nonneg, h.writeIndex_lt, ?_, ?_, ?_, ?_, h.currentWrite_eq, ?_, ?_⟩
  · rw [hget]
    omega
  · rw [hget]
  · rw [hget]
    exact (cells_drop hcells).2
  · rw [hget, hlost]
    show wrap poolSize (ring.readIndex + 1) =
      (ring.writeIndex - newer.length - overwritten account) % _
    rw [wrap_eq (by omega) (by omega), hread, Int.emod_add_emod]
    congr 1
    omega
  · rw [Account.values_get]
    exact h.writeCnt_eq
  · rw [Account.values_get, hlost]
    exact h.notFilled

/-- When the overwritten entries make full rounds, the entry read is the oldest one. -/
theorem Tracks.get_oldest (h : Tracks poolSize ring account)
    (hpending : account.pending = oldest :: newer)
    (hcounter : account.values.length < 2 ^ 64 ∨
      poolSize.val ≤ account.values.length % 2 ^ 64)
    (hrounds : overwritten account % poolSize.val = 0) :
    (ring.get poolSize).1 = some oldest := by
  have hcells := h.cells_eq
  rw [hpending] at hcells
  have hread : ring.readIndex =
      (ring.writeIndex - (oldest :: newer).length) % poolSize.val := by
    have hzero : (overwritten account : Int) % poolSize.val = 0 := by omega
    rw [h.readIndex_eq, hpending, Int.sub_emod, hzero, Int.sub_zero, Int.emod_emod]
  rw [get_eq h hpending hcounter, hread, (cells_drop hcells).1]

end Get

/-! ### Runs -/

theorem tracks_step {session next : Session T} {access : Access T}
    (h : Tracks poolSize session.ring session.account)
    (hallowed : HasUnread session access ∧ InStep poolSize session access)
    (hstep : step poolSize session access = some next) :
    Tracks poolSize next.ring next.account := by
  cases access with
  | put newdata =>
    cases hstep
    exact h.put newdata
  | get =>
    cases hstep
    obtain ⟨oldest, newer, hpending⟩ := List.exists_cons_of_ne_nil hallowed.1
    exact h.get hpending hallowed.2.2
  | clear =>
    cases hstep
    exact .clear session.ring

theorem returnsOldest_of_tracks {session : Session T} {access : Access T}
    (h : Tracks poolSize session.ring session.account)
    (hallowed : HasUnread session access ∧ InStep poolSize session access) :
    ReturnsOldest poolSize session access := by
  cases access with
  | get =>
    obtain ⟨oldest, newer, hpending⟩ := List.exists_cons_of_ne_nil hallowed.1
    rw [ReturnsOldest, h.get_oldest hpending hallowed.2.2 hallowed.2.1, hpending]
    rfl
  | put newdata => trivial
  | clear => trivial

/-- The entries come out in the order in which they were put, the overwritten ones left out, in
every run whose calls of `get` find `readIndex` in step. -/
theorem gets_return_oldest (poolSize : PoolSize) (vals : Int → T) (calls : List (Access T))
    (hunread : Along (step poolSize) HasUnread (.start vals) calls)
    (hinStep : Along (step poolSize) (InStep poolSize) (.start vals) calls) :
    Along (step poolSize) (ReturnsOldest poolSize) (.start vals) calls ∧
      Always (step poolSize) (CountsUnread poolSize) (.start vals) calls := by
  have hallowed := hunread.and hinStep
  constructor
  · exact along_of_invariant_along (fun _ _ _ => tracks_step) (fun _ _ => returnsOldest_of_tracks)
      (tracks_start vals) hallowed
  · exact always_of_invariant_along (fun _ _ _ => tracks_step)
      (fun _ h => ⟨h.occupiedCnt_eq, h.room⟩) (tracks_start vals) hallowed

/-- A pool of two entries. -/
def twoEntries : PoolSize := ⟨2, Nat.zero_lt_two, by decide⟩

theorem gets_return_oldest_two :
    Along (step twoEntries) (ReturnsOldest twoEntries) (.start fun _ => 0)
        [.put 1, .put 2, .get, .put 3, .get, .get] ∧
      Always (step twoEntries) (CountsUnread twoEntries) (.start fun _ => 0)
        [.put 1, .put 2, .get, .put 3, .get, .get] :=
  gets_return_oldest twoEntries (fun _ => 0) [.put 1, .put 2, .get, .put 3, .get, .get]
    (by simp [Along, step, HasUnread, Session.start, Account.put, Account.get, Account.push,
      Account.settle, twoEntries])
    (by simp [Along, step, InStep, overwritten, Account.withFate, Account.values, Session.start,
      Account.put, Account.get, Account.push, Account.settle, twoEntries])

/-- After three entries in a pool of two, the newest one is returned first. -/
theorem newest_returned_first :
    Along (step twoEntries) HasUnread (.start fun _ => 0) [.put 1, .put 2, .put 3, .get] ∧
      ¬ Along (step twoEntries) (ReturnsOldest twoEntries) (.start fun _ => 0)
        [.put 1, .put 2, .put 3, .get] := by
  constructor
  · simp [Along, step, HasUnread, Session.start, Account.put, Account.push, Account.settle,
      twoEntries]
  · rintro ⟨-, -, -, hget, -⟩
    have hread : some 3 = some 2 := hget
    exact absurd hread (by decide)

end RingBuffer

end Rodos.Support
