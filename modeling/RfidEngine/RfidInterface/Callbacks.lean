import RfidEngine.Lib.KeyedTable
import RfidEngine.Lib.StepSystem

/-!
# RfidInterface: the lists of callbacks

An interface keeps three lists of callbacks, one entry for each function and
user data. A member function takes a lock, then adds, replaces or erases an
entry, or walks its list and calls the functions in it. `RegisterAsyncCallback`
takes the lock of the hook list, and so keeps out no other use of the list it
writes.

## Main result

A walk that is alone on its list has called, once each, the entries whose last
registration was not followed by an unregistration. Two threads are on a list
at once in some run exactly when they hold different locks.
-/

namespace RfidEngine

open KeyedTable StepSystem

namespace Callbacks

variable {φ τ : Type}

/-- An entry of one of the lists; those of the hook list have no type. -/
structure Entry (φ : Type) where
  uiType : Nat
  fnCallback : φ
  usUserData : Nat
  deriving DecidableEq

/-- What `operator==` compares. -/
def Entry.key (cb : Entry φ) : φ × Nat := (cb.fnCallback, cb.usUserData)

/-- `m_lstHookCallback`, `m_lstAsyncCallback` and `m_lstHeartbeatCallback`. -/
inductive Registry where
  | hook
  | async
  | heartbeat
  deriving DecidableEq

inductive Mutex where
  | muxHookLock
  | muxAsyncLock
  | muxHeartbeatLock
  deriving DecidableEq

/-- A call of a member function, with `none` for a null pointer. -/
inductive Op (φ : Type) where
  | register (fnCallback : Option φ) (usUserData uiType : Nat)
  | unRegister (fnCallback : Option φ) (usUserData : Nat)
  | on (uiType : Nat)
  deriving DecidableEq

/-- The lock that a member function takes. -/
def lockOf : Registry → Op φ → Mutex
  | .hook, _ => .muxHookLock
  | .async, .register _ _ _ => .muxHookLock
  | .async, _ => .muxAsyncLock
  | .heartbeat, _ => .muxHeartbeatLock

theorem lockOf_const {r : Registry} (hr : r ≠ .async) (op op' : Op φ) :
    lockOf r op = lockOf r op' := by
  cases r with
  | async => exact absurd rfl hr
  | hook | heartbeat => rfl

/-- The entry that is built for a registration. -/
def newEntry (r : Registry) (fnCallback : φ) (usUserData uiType : Nat) : Entry φ :=
  ⟨match r with
    | .async => uiType
    | _ => 0, fnCallback, usUserData⟩

/-- The test of `OnAsyncCallback`; the other two call every entry. -/
def fits (r : Registry) (uiType : Nat) (cb : Entry φ) : Bool :=
  match r with
  | .async => cb.uiType == 0 || cb.uiType == uiType
  | _ => true

section Operations

variable [DecidableEq φ]

/-- What a call does to its list. -/
def Op.change (r : Registry) : Op φ → List (Entry φ) → List (Entry φ)
  | .register (some fnCallback) usUserData uiType, list =>
      put Entry.key (newEntry r fnCallback usUserData uiType) list
  | .unRegister (some fnCallback) usUserData, list => remove Entry.key (fnCallback, usUserData) list
  | _, list => list

/-- The function and the user data of a call that changes the list. -/
def Op.key : Op φ → Option (φ × Nat)
  | .register fnCallback usUserData _ => fnCallback.map fun fn => (fn, usUserData)
  | .unRegister fnCallback usUserData => fnCallback.map fun fn => (fn, usUserData)
  | .on _ => none

/-- The entry that a call leaves under its key. -/
def Op.entry (r : Registry) : Op φ → Option (Entry φ)
  | .register fnCallback usUserData uiType =>
      fnCallback.map fun fn => newEntry r fn usUserData uiType
  | _ => none

/-- A registration of a null pointer returns `false` in front of the lock. -/
def Op.refused : Op φ → Bool
  | .register fnCallback _ _ => fnCallback.isNone
  | _ => false

theorem Op.change_of_refused {r : Registry} {op : Op φ} (h : op.refused = true)
    (list : List (Entry φ)) : op.change r list = list := by
  cases op with
  | register fnCallback usUserData uiType =>
      obtain rfl := Option.isNone_iff_eq_none.mp h
      rfl
  | unRegister fnCallback usUserData => exact absurd h (by simp [Op.refused])
  | on uiType => rfl

theorem Op.unique_change {r : Registry} {op : Op φ} {list : List (Entry φ)}
    (h : Unique Entry.key list) : Unique Entry.key (op.change r list) := by
  cases op with
  | register fnCallback usUserData uiType =>
      cases fnCallback with
      | none => exact h
      | some fn => exact h.put
  | unRegister fnCallback usUserData =>
      cases fnCallback with
      | none => exact h
      | some fn => exact h.remove
  | on uiType => exact h

/-- What a call changes is what is found under its own key. -/
theorem Op.lookup_change {r : Registry} {op : Op φ} {list : List (Entry φ)}
    (h : Unique Entry.key list) (k : φ × Nat) :
    lookup Entry.key k (op.change r list) =
      if op.key = some k then op.entry r else lookup Entry.key k list := by
  cases op with
  | register fnCallback usUserData uiType =>
      cases fnCallback with
      | none => simp [Op.change, Op.key]
      | some fn =>
          have hk : (newEntry r fn usUserData uiType).key = (fn, usUserData) := rfl
          rw [Op.change, lookup_put, hk]
          simp [Op.key, Op.entry, eq_comm]
  | unRegister fnCallback usUserData =>
      cases fnCallback with
      | none => simp [Op.change, Op.key]
      | some fn =>
          rw [Op.change, lookup_remove h]
          simp [Op.key, Op.entry, eq_comm]
  | on uiType => simp [Op.change, Op.key]

end Operations

inductive Body (φ : Type) where
  | pending
  | walk (place : Nat) (called : List (Entry φ))
  | done

/-- A call that holds its lock. -/
structure Section (φ : Type) where
  registry : Registry
  op : Op φ
  body : Body φ

namespace Section

def lock (sec : Section φ) : Mutex := lockOf sec.registry sec.op

def begin (r : Registry) (op : Op φ) : Section φ :=
  ⟨r, op, match op with
    | .on _ => .walk 0 []
    | _ => .pending⟩

/-- One step between the two uses of the lock: the change of the list, or the next entry of the
walk. -/
def advance [DecidableEq φ] (sec : Section φ) (list : List (Entry φ)) :
    Option (Body φ × List (Entry φ)) :=
  match sec.op, sec.body with
  | .on uiType, .walk place called => list[place]?.map fun cb =>
      (.walk (place + 1) (if fits sec.registry uiType cb then called ++ [cb] else called), list)
  | op, .pending => some (.done, op.change sec.registry list)
  | _, _ => none

/-- The call gives its lock back. -/
def finished (sec : Section φ) (list : List (Entry φ)) : Bool :=
  match sec.body with
  | .pending => false
  | .walk place _ => place == list.length
  | .done => true

end Section

structure Sys (τ φ : Type) where
  lists : Registry → List (Entry φ)
  held : Mutex → Option τ
  inside : τ → Option (Section φ)

def Sys.init : Sys τ φ := ⟨fun _ => [], fun _ => none, fun _ => none⟩

inductive Act (τ φ : Type) where
  | enter (t : τ) (r : Registry) (op : Op φ)
  | advance (t : τ)
  | leave (t : τ)

/-- A thread that is inside a call holds the lock of the call. -/
def Locked (s : Sys τ φ) : Prop := ∀ t sec, s.inside t = some sec → s.held sec.lock = some t

/-- No two threads are on the list. -/
def Exclusive (r : Registry) (s : Sys τ φ) : Prop :=
  ∀ t t' sec sec', s.inside t = some sec → s.inside t' = some sec' → sec.registry = r →
    sec'.registry = r → t = t'

/-- Threads that hold one lock are one thread. -/
theorem Locked.eq_of_lock {s : Sys τ φ} {t t' : τ} {sec sec' : Section φ} (h : Locked s)
    (ht : s.inside t = some sec) (ht' : s.inside t' = some sec') (hlock : sec.lock = sec'.lock) :
    t = t' := by
  have hheld := h t sec ht
  rw [hlock, h t' sec' ht'] at hheld
  exact (Option.some.inj hheld).symm

-- The calls of the member functions; only the asynchronous ones have a type.

def registerHookCallback (t : τ) (fnPacketHookCallback : Option φ) (usUserData : Nat) : Act τ φ :=
  .enter t .hook (.register fnPacketHookCallback usUserData 0)

def unRegisterHookCallback (t : τ) (fnPacketHookCallback : Option φ) (usUserData : Nat) :
    Act τ φ :=
  .enter t .hook (.unRegister fnPacketHookCallback usUserData)

def onHookCallback (t : τ) : Act τ φ := .enter t .hook (.on 0)

def registerAsyncCallback (t : τ) (fnAsyncPacketCallback : Option φ) (usUserData uiType : Nat) :
    Act τ φ :=
  .enter t .async (.register fnAsyncPacketCallback usUserData uiType)

def unRegisterAsyncCallback (t : τ) (fnAsyncPacketCallback : Option φ) (usUserData : Nat) :
    Act τ φ :=
  .enter t .async (.unRegister fnAsyncPacketCallback usUserData)

def onAsyncCallback (t : τ) (uiType : Nat) : Act τ φ := .enter t .async (.on uiType)

def registerHeartbeatCallback (t : τ) (fnHeartbeatPacketCallback : Option φ) (usUserData : Nat) :
    Act τ φ :=
  .enter t .heartbeat (.register fnHeartbeatPacketCallback usUserData 0)

def unRegisterHeartbeatCallback (t : τ) (fnHeartbeatPacketCallback : Option φ) (usUserData : Nat) :
    Act τ φ :=
  .enter t .heartbeat (.unRegister fnHeartbeatPacketCallback usUserData)

def onHeartbeatCallback (t : τ) (uiType : Nat) : Act τ φ := .enter t .heartbeat (.on uiType)

section Steps

variable [DecidableEq φ] [DecidableEq τ]

namespace Sys

def entered (s : Sys τ φ) (t : τ) (r : Registry) (op : Op φ) : Sys τ φ :=
  { s with
    held := Function.update s.held (lockOf r op) (some t)
    inside := Function.update s.inside t (some (.begin r op)) }

def advanced (s : Sys τ φ) (t : τ) (sec : Section φ) (body : Body φ) (list : List (Entry φ)) :
    Sys τ φ :=
  { s with
    lists := Function.update s.lists sec.registry list
    inside := Function.update s.inside t (some { sec with body }) }

def left (s : Sys τ φ) (t : τ) (sec : Section φ) : Sys τ φ :=
  { s with
    held := Function.update s.held sec.lock none
    inside := Function.update s.inside t none }

end Sys

/-- A thread that meets a lock that is held waits. -/
def step (s : Sys τ φ) : Act τ φ → Option (Sys τ φ)
  | .enter t r op =>
      if op.refused then some s
      else if s.inside t = none ∧ s.held (lockOf r op) = none then some (s.entered t r op)
      else none
  | .advance t => do
      let sec ← s.inside t
      let (body, list) ← sec.advance (s.lists sec.registry)
      some (s.advanced t sec body list)
  | .leave t => do
      let sec ← s.inside t
      if sec.finished (s.lists sec.registry) then some (s.left t sec) else none

/-- What a step can be. -/
inductive Moves (s : Sys τ φ) : Act τ φ → Sys τ φ → Prop where
  | refused {t r op} : op.refused = true → Moves s (.enter t r op) s
  | enter {t r op} : op.refused = false → s.inside t = none → s.held (lockOf r op) = none →
      Moves s (.enter t r op) (s.entered t r op)
  | advance {t sec body list} : s.inside t = some sec →
      sec.advance (s.lists sec.registry) = some (body, list) →
      Moves s (.advance t) (s.advanced t sec body list)
  | leave {t sec} : s.inside t = some sec → sec.finished (s.lists sec.registry) = true →
      Moves s (.leave t) (s.left t sec)

variable {s s' : Sys τ φ} {a : Act τ φ}

theorem moves_of_step (h : step s a = some s') : Moves s a s' := by
  cases a with
  | enter t r op =>
      simp only [step] at h
      split at h
      · rename_i hrefused
        obtain rfl := Option.some.inj h
        exact .refused hrefused
      · split at h
        · rename_i hrefused hfree
          obtain rfl := Option.some.inj h
          exact .enter (by simpa using hrefused) hfree.1 hfree.2
        · exact absurd h (by simp)
  | advance t =>
      simp only [step, Option.bind_eq_bind, Option.bind_eq_some_iff] at h
      obtain ⟨sec, hsec, ⟨body, list⟩, hadvance, heq⟩ := h
      obtain rfl := Option.some.inj heq
      exact .advance hsec hadvance
  | leave t =>
      simp only [step, Option.bind_eq_bind, Option.bind_eq_some_iff] at h
      obtain ⟨sec, hsec, h⟩ := h
      split at h
      · rename_i hfinished
        obtain rfl := Option.some.inj h
        exact .leave hsec hfinished
      · exact absurd h (by simp)

theorem Locked.step (hlocked : Locked s) (h : step s a = some s') : Locked s' := by
  cases moves_of_step h with
  | refused _ => exact hlocked
  | @enter t r op _ hout hfree =>
      intro t' sec hsec
      simp only [Sys.entered, Function.update_apply] at hsec ⊢
      split at hsec
      · rename_i ht
        obtain rfl := Option.some.inj hsec
        rw [ht]
        exact if_pos rfl
      · have hheld := hlocked t' sec hsec
        rw [if_neg fun heq => ?_]
        · exact hheld
        · rw [heq, hfree] at hheld
          exact absurd hheld (by simp)
  | @advance t sec₀ body list hin _ =>
      intro t' sec hsec
      simp only [Sys.advanced, Function.update_apply] at hsec ⊢
      split at hsec
      · rename_i ht
        obtain rfl := Option.some.inj hsec
        rw [ht]
        exact hlocked t sec₀ hin
      · exact hlocked t' sec hsec
  | @leave t sec₀ hin _ =>
      intro t' sec hsec
      simp only [Sys.left, Function.update_apply] at hsec ⊢
      split at hsec
      · exact absurd hsec (by simp)
      · rename_i ht
        have hheld := hlocked t' sec hsec
        rw [if_neg fun heq => ?_]
        · exact hheld
        · rw [heq, hlocked t sec₀ hin] at hheld
          exact ht (Option.some.inj hheld).symm

theorem locked_of_run {acts : List (Act τ φ)} (hrun : exec step Sys.init acts = some s) :
    Locked s :=
  exec_invariant (fun _ _ _ h hstep => h.step hstep) (fun _ _ h => absurd h (by simp [Sys.init]))
    hrun

theorem exclusive_of_run {r : Registry} (hr : r ≠ .async) {acts : List (Act τ φ)}
    (hrun : exec step Sys.init acts = some s) : Exclusive r s := by
  intro t t' sec sec' ht ht' hsec hsec'
  apply (locked_of_run hrun).eq_of_lock ht ht'
  rw [Section.lock, Section.lock, hsec, hsec']
  exact lockOf_const hr _ _

end Steps

section Registrations

variable [DecidableEq φ] {r : Registry} {cb : Entry φ} {acts : List (Act τ φ)}

/-- The list after the calls of the run, one after the other. -/
def tableOf (r : Registry) (acts : List (Act τ φ)) : List (Entry φ) :=
  acts.foldl (fun list a =>
    match a with
    | .enter _ r' op => if r' = r then op.change r list else list
    | _ => list) []

theorem tableOf_enter (t : τ) (op : Op φ) :
    tableOf r (acts ++ [.enter t r op]) = op.change r (tableOf r acts) := by
  simp [tableOf]

theorem tableOf_of_ne {a : Act τ φ} (h : ∀ t op, a ≠ .enter t r op) :
    tableOf r (acts ++ [a]) = tableOf r acts := by
  rw [tableOf, List.foldl_append]
  cases a with
  | enter t r' op =>
      have hr : r' ≠ r := fun heq => h t op (heq ▸ rfl)
      simp [tableOf, hr]
  | advance t => rfl
  | leave t => rfl

theorem unique_tableOf : Unique Entry.key (tableOf r acts) := by
  induction acts using List.reverseRecOn with
  | nil => exact List.nodup_nil
  | append_singleton acts a ih =>
      by_cases hr : ∃ t op, a = .enter t r op
      · obtain ⟨t, op, rfl⟩ := hr
        rw [tableOf_enter]
        exact Op.unique_change ih
      · rw [tableOf_of_ne fun t op ha => hr ⟨t, op, ha⟩]
        exact ih

omit [DecidableEq φ] in
theorem Op.key_of_entry {op : Op φ} (h : op.entry r = some cb) : op.key = some cb.key := by
  cases op with
  | register fnCallback usUserData uiType =>
      obtain ⟨fn, rfl, rfl⟩ := Option.map_eq_some_iff.mp h
      rfl
  | unRegister fnCallback usUserData => exact absurd h (by simp [Op.entry])
  | on uiType => exact absurd h (by simp [Op.entry])

/-- The last call of the run with the key of the entry registers the entry. -/
def LastRegistered (r : Registry) (acts : List (Act τ φ)) (cb : Entry φ) : Prop :=
  ∃ pre t op post, acts = pre ++ .enter t r op :: post ∧ op.entry r = some cb ∧
    ∀ t' op', Act.enter t' r op' ∈ post → op'.key ≠ some cb.key

omit [DecidableEq φ] in
/-- A further call registers the entry, or it does not have its key. -/
theorem lastRegistered_snoc {a : Act τ φ} : LastRegistered r (acts ++ [a]) cb ↔
    (∃ t op, a = .enter t r op ∧ op.entry r = some cb) ∨
      (∀ t op, a = .enter t r op → op.key ≠ some cb.key) ∧ LastRegistered r acts cb := by
  constructor
  · rintro ⟨pre, t, op, post, hacts, hentry, hpost⟩
    obtain ⟨rfl, rfl, heq⟩ | ⟨post', rfl, rfl⟩ := split_snoc hacts
    · exact Or.inl ⟨t, op, heq.symm, hentry⟩
    · refine Or.inr ⟨fun t' op' ha => ?_, pre, t, op, post', rfl, hentry, fun t' op' hmem => ?_⟩
      · exact hpost t' op' (by simp [ha])
      · exact hpost t' op' (List.mem_append_left _ hmem)
  · rintro (⟨t, op, rfl, hentry⟩ | ⟨ha, pre, t, op, post, rfl, hentry, hpost⟩)
    · exact ⟨acts, t, op, [], rfl, hentry, fun _ _ hmem => absurd hmem (by simp)⟩
    · refine ⟨pre, t, op, post ++ [a], by simp, hentry, fun t' op' hmem => ?_⟩
      obtain hmem | hlast := List.mem_append.mp hmem
      · exact hpost t' op' hmem
      · exact ha t' op' (List.mem_singleton.mp hlast).symm

/-- What is found in the list is what was registered last. -/
theorem lookup_tableOf : lookup Entry.key cb.key (tableOf r acts) = some cb ↔
    LastRegistered r acts cb := by
  induction acts using List.reverseRecOn with
  | nil =>
      refine iff_of_false (by simp [tableOf]) ?_
      rintro ⟨pre, t, op, post, hacts, -⟩
      exact absurd hacts (by simp)
  | append_singleton acts a ih =>
      rw [lastRegistered_snoc, ← ih]
      by_cases hr : ∃ t op, a = .enter t r op
      · obtain ⟨t, op, rfl⟩ := hr
        rw [tableOf_enter, Op.lookup_change unique_tableOf]
        by_cases hkey : op.key = some cb.key
        · simp [hkey]
        · have hentry : op.entry r ≠ some cb := fun h => hkey (Op.key_of_entry h)
          simp [hkey, hentry]
      · have hne : ∀ t op, a ≠ .enter t r op := fun t op ha => hr ⟨t, op, ha⟩
        rw [tableOf_of_ne hne]
        simp [hne]

theorem mem_tableOf : cb ∈ tableOf r acts ↔ LastRegistered r acts cb := by
  rw [← lookup_tableOf]
  constructor
  · intro h
    exact lookup_of_mem unique_tableOf h
  · intro h
    exact (mem_of_lookup h).1

end Registrations

section Alone

variable [DecidableEq φ]

/-- How the list stands to the calls so far while the call is inside. -/
def Section.Agrees (sec : Section φ) (list table : List (Entry φ)) : Prop :=
  match sec.body with
  | .pending => sec.op.change sec.registry list = table
  | .walk place called => list = table ∧ ∃ uiType, sec.op = .on uiType ∧ place ≤ list.length ∧
      called = (list.take place).filter (fits sec.registry uiType)
  | .done => list = table

theorem Section.agrees_begin (r : Registry) (op : Op φ) (list : List (Entry φ)) :
    (begin r op).Agrees list (op.change r list) := by
  cases op with
  | register fnCallback usUserData uiType => rfl
  | unRegister fnCallback usUserData => rfl
  | on uiType => exact ⟨rfl, uiType, rfl, Nat.zero_le _, by simp⟩

theorem Section.Agrees.advance {sec : Section φ} {list list' table : List (Entry φ)}
    {body : Body φ} (h : sec.Agrees list table) (hadvance : sec.advance list = some (body, list')) :
    ({ sec with body } : Section φ).Agrees list' table := by
  obtain ⟨r, op, before⟩ := sec
  cases before with
  | pending =>
      obtain ⟨rfl, rfl⟩ : Body.done = body ∧ op.change r list = list' := by
        cases op <;> simpa [Section.advance] using hadvance
      exact h
  | walk place called =>
      obtain ⟨rfl, uiType, rfl, -, hcalled⟩ := h
      obtain rfl : called = (list.take place).filter (fits r uiType) := hcalled
      obtain ⟨cb, hcb, heq⟩ := Option.map_eq_some_iff.mp hadvance
      obtain ⟨rfl, rfl⟩ := Prod.mk.inj heq
      obtain ⟨hlt, rfl⟩ := List.getElem?_eq_some_iff.mp hcb
      refine ⟨rfl, uiType, rfl, hlt, ?_⟩
      rw [List.take_add_one, hcb, List.filter_append]
      by_cases hfits : fits r uiType list[place] = true
      · simp [hfits]
      · simp [hfits]
  | done => cases op <;> exact absurd hadvance (by simp [Section.advance])

theorem Section.Agrees.finished {sec : Section φ} {list table : List (Entry φ)}
    (h : sec.Agrees list table) (hfinished : sec.finished list = true) : list = table := by
  obtain ⟨r, op, body⟩ := sec
  cases body with
  | pending => exact absurd hfinished (by simp [Section.finished])
  | walk place called => exact h.1
  | done => exact h

variable [DecidableEq τ] {r : Registry} {s s' : Sys τ φ} {acts : List (Act τ φ)} {a : Act τ φ}

/-- The list is what the calls so far make of it, but for a change that is still to be made. -/
structure Holds (r : Registry) (acts : List (Act τ φ)) (s : Sys τ φ) : Prop where
  idle : (∀ t sec, s.inside t = some sec → sec.registry ≠ r) → s.lists r = tableOf r acts
  busy : ∀ t sec, s.inside t = some sec → sec.registry = r →
    sec.Agrees (s.lists r) (tableOf r acts)

/-- A call on another list neither uses nor changes this one. -/
theorem Holds.of_frame {t : τ} {acts' : List (Act τ φ)} (h : Holds r acts s)
    (hlist : s'.lists r = s.lists r) (htable : tableOf r acts' = tableOf r acts)
    (hother : ∀ t' ≠ t, s'.inside t' = s.inside t')
    (hbefore : ∀ sec, s.inside t = some sec → sec.registry ≠ r)
    (hafter : ∀ sec, s'.inside t = some sec → sec.registry ≠ r) : Holds r acts' s' where
  idle := by
    intro hidle
    rw [hlist, htable]
    apply h.idle
    intro t' sec hsec
    by_cases ht : t' = t
    · exact hbefore sec (ht ▸ hsec)
    · exact hidle t' sec (hother t' ht ▸ hsec)
  busy := by
    intro t' sec hsec hr
    rw [hlist, htable]
    by_cases ht : t' = t
    · exact absurd hr (hafter sec (ht ▸ hsec))
    · exact h.busy t' sec (hother t' ht ▸ hsec) hr

theorem Holds.step (h : Holds r acts s) (hexclusive : Exclusive r s) (hexclusive' : Exclusive r s')
    (hstep : step s a = some s') : Holds r (acts ++ [a]) s' := by
  cases moves_of_step hstep with
  | @refused t r' op hrefused =>
      have htable : tableOf r (acts ++ [.enter t r' op]) = tableOf r acts := by
        by_cases hr : r' = r
        · obtain rfl := hr
          rw [tableOf_enter, Op.change_of_refused hrefused]
        · exact tableOf_of_ne fun _ _ heq => hr (Act.enter.inj heq).2.1
      exact ⟨fun hidle => htable ▸ h.idle hidle, fun t sec hsec hr => htable ▸ h.busy t sec hsec hr⟩
  | @enter t r' op _ hout hfree =>
      have hin : (s.entered t r' op).inside t = some (.begin r' op) := by simp [Sys.entered]
      have hother : ∀ t' ≠ t, (s.entered t r' op).inside t' = s.inside t' := by
        intro t' ht
        simp [Sys.entered, ht]
      by_cases hr : r' = r
      · obtain rfl := hr
        -- The list is left alone by the others, so the new call finds what they left.
        have hlist : s.lists r' = tableOf r' acts := by
          apply h.idle
          intro t' sec hsec hr
          have ht : t' ≠ t := by
            rintro rfl
            exact absurd hsec (by simp [hout])
          exact ht (hexclusive' t' t sec _ (hother t' ht ▸ hsec) hin hr rfl)
        refine ⟨fun hidle => absurd rfl (hidle t _ hin), fun t' sec hsec hr => ?_⟩
        obtain rfl := hexclusive' t' t sec _ hsec hin hr rfl
        obtain rfl := Option.some.inj (hin.symm.trans hsec)
        rw [tableOf_enter, ← hlist]
        exact Section.agrees_begin r' op _
      · refine h.of_frame rfl (tableOf_of_ne fun _ _ heq => hr (Act.enter.inj heq).2.1) hother ?_ ?_
        · exact fun sec hsec => absurd hsec (by simp [hout])
        · intro sec hsec
          obtain rfl := Option.some.inj (hin.symm.trans hsec)
          exact hr
  | @advance t sec body list hsec hadvance =>
      have htable : tableOf r (acts ++ [.advance t]) = tableOf r acts :=
        tableOf_of_ne (by simp)
      have hin : (s.advanced t sec body list).inside t = some { sec with body } := by
        simp [Sys.advanced]
      have hother : ∀ t' ≠ t, (s.advanced t sec body list).inside t' = s.inside t' := by
        intro t' ht
        simp [Sys.advanced, ht]
      by_cases hr : sec.registry = r
      · refine ⟨fun hidle => absurd hr (hidle t { sec with body } hin), fun t' sec' hsec' hr' => ?_⟩
        obtain rfl := hexclusive' t' t sec' _ hsec' hin hr' hr
        obtain rfl := Option.some.inj (hin.symm.trans hsec')
        have hlist : (s.advanced t' sec body list).lists r = list := by simp [Sys.advanced, hr]
        rw [htable, hlist]
        exact (h.busy t' sec hsec hr).advance (hr ▸ hadvance)
      · have hlist : (s.advanced t sec body list).lists r = s.lists r := by
          simp [Sys.advanced, Function.update_of_ne (Ne.symm hr)]
        refine h.of_frame hlist htable hother ?_ ?_
        · intro sec' hsec'
          obtain rfl := Option.some.inj (hsec.symm.trans hsec')
          exact hr
        · intro sec' hsec'
          obtain rfl := Option.some.inj (hin.symm.trans hsec')
          exact hr
  | @leave t sec hsec hfinished =>
      have htable : tableOf r (acts ++ [.leave t]) = tableOf r acts :=
        tableOf_of_ne (by simp)
      have hout : (s.left t sec).inside t = none := by simp [Sys.left]
      have hother : ∀ t' ≠ t, (s.left t sec).inside t' = s.inside t' := by
        intro t' ht
        simp [Sys.left, ht]
      by_cases hr : sec.registry = r
      · refine ⟨fun _ => ?_, fun t' sec' hsec' hr' => ?_⟩
        · rw [htable]
          exact (h.busy t sec hsec hr).finished (hr ▸ hfinished)
        · have ht : t' ≠ t := by
            rintro rfl
            exact absurd hsec' (by simp [hout])
          exact absurd (hexclusive t' t sec' sec (hother t' ht ▸ hsec') hsec hr' hr) ht
      · refine h.of_frame rfl htable hother ?_ ?_
        · intro sec' hsec'
          obtain rfl := Option.some.inj (hsec.symm.trans hsec')
          exact hr
        · exact fun sec' hsec' => absurd hsec' (by simp [hout])

theorem holds_of_run (hrun : exec step Sys.init acts = some s)
    (halways : Always step (Exclusive r) Sys.init acts) : Holds r acts s := by
  refine exec_history (M := fun acts s => Always step (Exclusive r) Sys.init acts → Holds r acts s)
    (fun _ => ⟨fun _ => rfl, fun t sec hsec => absurd hsec (by simp [Sys.init])⟩)
    (fun acts u a u' hu ih hstep halways => ?_) hrun halways
  have hbefore : Always step (Exclusive r) Sys.init acts :=
    fun pre v hpre => halways pre v (hpre.trans (List.prefix_append acts [a]))
  have hafter : exec step Sys.init (acts ++ [a]) = some u' :=
    exec_snoc hu hstep
  exact (ih hbefore).step (hbefore acts u (List.prefix_refl acts) hu)
    (halways _ u' (List.prefix_refl _) hafter) hstep

/-- The run in which one call is entered after another. -/
theorem overlap_of_lock_ne {t t' : τ} {op op' : Op φ} (ht : t ≠ t') (hop : op.refused = false)
    (hop' : op'.refused = false) (hlock : lockOf r op ≠ lockOf r op') :
    ∃ acts s body body', exec Callbacks.step Sys.init acts = some s ∧
      s.inside t = some ⟨r, op, body⟩ ∧ s.inside t' = some ⟨r, op', body'⟩ := by
  have hfirst : Callbacks.step Sys.init (.enter t r op) = some (Sys.init.entered t r op) := by
    simp [Callbacks.step, hop, Sys.init]
  have hsecond : Callbacks.step (Sys.init.entered t r op) (.enter t' r op') =
      some ((Sys.init.entered t r op).entered t' r op') := by
    simp [Callbacks.step, hop', Sys.init, Sys.entered, ht.symm, hlock.symm]
  refine ⟨[.enter t r op, .enter t' r op'], (Sys.init.entered t r op).entered t' r op',
    (Section.begin r op).body, (Section.begin r op').body, ?_, ?_, ?_⟩
  · exact (exec_cons_eq_some _).mpr ⟨_, hfirst, (exec_cons_eq_some _).mpr ⟨_, hsecond, rfl⟩⟩
  · simp [Sys.entered, ht, Section.begin]
  · simp [Sys.entered, Section.begin]

end Alone

/-- Where the list is used by one thread at a time, as the hook and the heartbeat list always are,
a walk that has reached the end has called, once each, the entries that fit and whose last
registration no unregistration followed. Two threads can be on a list at once exactly when their
calls take different locks. -/
theorem callbacks_called_once [DecidableEq φ] [DecidableEq τ] :
    (∀ (r : Registry) (acts : List (Act τ φ)) (s : Sys τ φ), exec step Sys.init acts = some s →
      r ≠ .async ∨ Always step (Exclusive r) Sys.init acts →
      ∀ t uiType called, s.inside t = some ⟨r, .on uiType, .walk (s.lists r).length called⟩ →
        (called.map Entry.key).Nodup ∧
          ∀ cb, cb ∈ called ↔ fits r uiType cb = true ∧ LastRegistered r acts cb) ∧
    ∀ (t t' : τ) (r : Registry) (op op' : Op φ), t ≠ t' → op.refused = false →
      op'.refused = false →
      ((∃ acts s body body', exec step Sys.init acts = some s ∧
        s.inside t = some ⟨r, op, body⟩ ∧ s.inside t' = some ⟨r, op', body'⟩) ↔
        lockOf r op ≠ lockOf r op') := by
  constructor
  · intro r acts s hrun halone t uiType called hwalk
    have halways : Always step (Exclusive r) Sys.init acts := by
      obtain hr | halways := halone
      · exact fun pre u _ hu => exclusive_of_run hr hu
      · exact halways
    have hagrees := (holds_of_run hrun halways).busy t _ hwalk rfl
    obtain ⟨hlist, uiType', hop, -, hcalled⟩ := hagrees
    obtain rfl := Op.on.inj hop
    rw [List.take_length, hlist] at hcalled
    obtain rfl : called = (tableOf r acts).filter (fits r uiType) := hcalled
    refine ⟨unique_tableOf.sublist (List.filter_sublist.map Entry.key), fun cb => ?_⟩
    rw [List.mem_filter, mem_tableOf, and_comm]
  · intro t t' r op op' ht hop hop'
    constructor
    · rintro ⟨acts, s, body, body', hrun, hin, hin'⟩ hlock
      exact ht ((locked_of_run hrun).eq_of_lock hin hin' hlock)
    · exact overlap_of_lock_ne ht hop hop'

/-- A thread registers a hook twice, and another passes a packet on. -/
def hookRun : List (Act Bool Bool) :=
  [registerHookCallback true (some true) 7, .advance true, .leave true,
    registerHookCallback true (some true) 7, .advance true, .leave true,
    onHookCallback false, .advance false]

theorem callbacks_called_once_hookRun :
    (∀ cb, cb ∈ [Entry.mk 0 true 7] ↔
      fits .hook 0 cb = true ∧ LastRegistered .hook hookRun cb) ∧
    ∃ acts s body body', exec step (Sys.init : Sys Bool Bool) acts = some s ∧
      s.inside true = some ⟨.async, .register (some true) 7 0, body⟩ ∧
      s.inside false = some ⟨.async, .on 0, body'⟩ :=
  ⟨(callbacks_called_once.1 .hook hookRun ((exec step Sys.init hookRun).get rfl)
      (Option.some_get _).symm (.inl (by decide)) false 0 [⟨0, true, 7⟩] rfl).2,
    (callbacks_called_once.2 true false .async _ _ (by decide) rfl rfl).mpr (by decide)⟩

end Callbacks

end RfidEngine
