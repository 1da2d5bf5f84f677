import TurboAgent.Router.Run

/-!
# Occupancy of the endpoints

The ledger of a router is what its admission reads: the busy flags, the limit and the
count of tool tasks, and one slot a live task.  A slot is only opened by a submission and
only closed by a release; no other change of the router touches the ledger.  The accounting
is an invariant of the ledger, and every run of the router is a run of its ledger.
-/

namespace TurboAgent.Router

/-! ## The ledger -/

structure Slot where
  (handle endpoint : Nat)
  toolLoop : Bool
  deriving DecidableEq

/-- What the admission of a router reads and writes. -/
structure Ledger where
  busy : List Bool
  (limit count : Nat)
  slots : List Slot
  next : Nat
  deriving DecidableEq

namespace Ledger

inductive Step (ledger : Ledger) : Ledger → Prop where
  /-- A handle is given to something that is not a task. -/
  | handle : Step ledger { ledger with next := ledger.next + 1 }
  /-- A new limit while no endpoint is busy. -/
  | limit (limit : Nat) (positive : 0 < limit) (idle : true ∉ ledger.busy) :
      Step ledger { ledger with limit }
  /-- A submission opens a slot at an idle endpoint. -/
  | opened (slot : Slot) (idle : ledger.busy[slot.endpoint]? = some false)
      (fresh : slot.handle = ledger.next) (single : ledger.limit = 1 → ledger.count = 0)
      (room : slot.toolLoop → ledger.count < ledger.limit)
      (alone : slot.toolLoop → ledger.limit = 1 → true ∉ ledger.busy) :
      Step ledger { ledger with
        busy := ledger.busy.set slot.endpoint true
        count := if slot.toolLoop then ledger.count + 1 else ledger.count
        slots := slot :: ledger.slots
        next := ledger.next + 1 }
  /-- A release closes a slot. -/
  | closed (slot : Slot) (live : slot ∈ ledger.slots) :
      Step ledger { ledger with
        busy := ledger.busy.set slot.endpoint false
        count := if slot.toolLoop then ledger.count - 1 else ledger.count
        slots := ledger.slots.filter fun other => other.handle ≠ slot.handle }

structure Valid (ledger : Ledger) : Prop where
  handles : (ledger.slots.map Slot.handle).Nodup
  allocated : ∀ slot ∈ ledger.slots, slot.handle < ledger.next
  exclusive : (ledger.slots.map Slot.endpoint).Nodup
  located : ∀ slot ∈ ledger.slots, ledger.busy[slot.endpoint]? = some true
  used : ∀ index, ledger.busy[index]? = some true →
    ∃ slot ∈ ledger.slots, slot.endpoint = index
  counted : ledger.count = ledger.slots.countP Slot.toolLoop
  bounded : ledger.count ≤ ledger.limit
  positive : 0 < ledger.limit
  alone : ledger.limit = 1 → ∀ slot ∈ ledger.slots, slot.toolLoop → ledger.slots = [slot]

variable {ledger next : Ledger}

theorem Valid.slots_of_idle (valid : ledger.Valid) (idle : true ∉ ledger.busy) :
    ledger.slots = [] := by
  apply List.eq_nil_iff_forall_not_mem.mpr
  intro slot live
  exact idle (List.mem_of_getElem? (valid.located slot live))

theorem Valid.handle (valid : ledger.Valid) :
    Valid { ledger with next := ledger.next + 1 } where
  handles := valid.handles
  allocated := fun slot live => Nat.lt_succ_of_lt (valid.allocated slot live)
  exclusive := valid.exclusive
  located := valid.located
  used := valid.used
  counted := valid.counted
  bounded := valid.bounded
  positive := valid.positive
  alone := valid.alone

theorem Valid.limit (valid : ledger.Valid) {limit : Nat} (positive : 0 < limit)
    (idle : true ∉ ledger.busy) : Valid { ledger with limit } where
  handles := valid.handles
  allocated := valid.allocated
  exclusive := valid.exclusive
  located := valid.located
  used := valid.used
  counted := valid.counted
  bounded := by
    have empty := valid.counted
    rw [valid.slots_of_idle idle] at empty
    simp [empty]
  positive
  alone := by
    intro _ slot live
    rw [valid.slots_of_idle idle] at live
    cases live

theorem Valid.idle_unused (valid : ledger.Valid) {index : Nat}
    (idle : ledger.busy[index]? = some false) :
    ∀ slot ∈ ledger.slots, slot.endpoint ≠ index := by
  intro slot live same
  have busy := valid.located slot live
  rw [same, idle] at busy
  cases busy

theorem Valid.opened (valid : ledger.Valid) (slot : Slot)
    (idle : ledger.busy[slot.endpoint]? = some false) (fresh : slot.handle = ledger.next)
    (single : ledger.limit = 1 → ledger.count = 0)
    (room : slot.toolLoop → ledger.count < ledger.limit)
    (alone : slot.toolLoop → ledger.limit = 1 → true ∉ ledger.busy) :
    Valid { ledger with
      busy := ledger.busy.set slot.endpoint true
      count := if slot.toolLoop then ledger.count + 1 else ledger.count
      slots := slot :: ledger.slots
      next := ledger.next + 1 } where
  handles := by
    refine List.nodup_cons.mpr ⟨?_, valid.handles⟩
    intro known
    obtain ⟨other, live, same⟩ := List.mem_map.mp known
    have older := valid.allocated other live
    rw [same, fresh] at older
    exact Nat.lt_irrefl _ older
  allocated := by
    intro other live
    rcases List.mem_cons.mp live with rfl | live
    · simp [fresh]
    · exact Nat.lt_succ_of_lt (valid.allocated other live)
  exclusive := by
    refine List.nodup_cons.mpr ⟨?_, valid.exclusive⟩
    intro known
    obtain ⟨other, live, same⟩ := List.mem_map.mp known
    exact valid.idle_unused idle other live same
  located := by
    have inside : slot.endpoint < ledger.busy.length := (List.getElem?_eq_some_iff.mp idle).1
    intro other live
    rcases List.mem_cons.mp live with rfl | live
    · exact List.getElem?_set_self inside
    · rw [List.getElem?_set_ne (valid.idle_unused idle other live).symm]
      exact valid.located other live
  used := by
    intro index busy
    by_cases same : slot.endpoint = index
    · exact ⟨slot, List.mem_cons_self, same⟩
    · rw [List.getElem?_set_ne same] at busy
      obtain ⟨other, live, there⟩ := valid.used index busy
      exact ⟨other, List.mem_cons_of_mem _ live, there⟩
  counted := by
    simp only [List.countP_cons, ← valid.counted]
    split <;> rfl
  bounded := by
    show (if slot.toolLoop then ledger.count + 1 else ledger.count) ≤ ledger.limit
    split
    next loop => exact room loop
    next => exact valid.bounded
  positive := valid.positive
  alone := by
    intro one other live loop
    -- with limit 1 there was no tool task, and a tool task is only let in alone
    have none : ∀ known ∈ ledger.slots, ¬known.toolLoop := by
      intro known member isLoop
      have counted := valid.counted
      rw [single one] at counted
      exact List.countP_eq_zero.mp counted.symm known member isLoop
    rcases List.mem_cons.mp live with rfl | live
    · simp only [valid.slots_of_idle (alone loop one)]
    · exact absurd loop (none other live)

theorem Valid.slot_unique (valid : ledger.Valid) {slot other : Slot}
    (live : slot ∈ ledger.slots) (known : other ∈ ledger.slots)
    (same : other.handle = slot.handle) : other = slot :=
  List.inj_on_of_nodup_map valid.handles known live same

theorem countP_filter_handle {slots : List Slot} (handles : (slots.map Slot.handle).Nodup)
    {slot : Slot} (live : slot ∈ slots) :
    (slots.filter fun other => other.handle ≠ slot.handle).countP Slot.toolLoop +
      (if slot.toolLoop then 1 else 0) = slots.countP Slot.toolLoop := by
  induction slots with
  | nil => cases live
  | cons head slots ih =>
      rw [List.map_cons, List.nodup_cons] at handles
      rcases List.mem_cons.mp live with rfl | live
      · have kept : (slots.filter fun other => other.handle ≠ slot.handle) = slots := by
          apply List.filter_eq_self.mpr
          intro other known
          simp only [ne_eq, decide_not, Bool.not_eq_true', decide_eq_false_iff_not]
          intro same
          exact handles.1 (same ▸ List.mem_map_of_mem known)
        rw [List.filter_cons_of_neg (by simp), kept, List.countP_cons]
      · have apart : head.handle ≠ slot.handle := by
          intro same
          exact handles.1 (same ▸ List.mem_map_of_mem live)
        have rest := ih handles.2 live
        simp only [ne_eq, apart, not_false_eq_true, decide_true, List.filter_cons_of_pos,
          List.countP_cons] at rest ⊢
        omega

theorem Valid.closed (valid : ledger.Valid) (slot : Slot) (live : slot ∈ ledger.slots) :
    Valid { ledger with
      busy := ledger.busy.set slot.endpoint false
      count := if slot.toolLoop then ledger.count - 1 else ledger.count
      slots := ledger.slots.filter fun other => other.handle ≠ slot.handle } where
  handles := valid.handles.sublist (List.filter_sublist.map _)
  allocated := fun other known => valid.allocated other (List.mem_filter.mp known).1
  exclusive := valid.exclusive.sublist (List.filter_sublist.map _)
  located := by
    intro other known
    obtain ⟨known, apart⟩ := List.mem_filter.mp known
    have elsewhere : slot.endpoint ≠ other.endpoint := by
      intro same
      have equal : slot = other := List.inj_on_of_nodup_map valid.exclusive live known same
      simp [equal] at apart
    rw [List.getElem?_set_ne elsewhere]
    exact valid.located other known
  used := by
    intro index busy
    have elsewhere : slot.endpoint ≠ index := by
      intro same
      subst same
      rw [List.getElem?_set] at busy
      simp only [if_true] at busy
      split at busy <;> cases busy
    rw [List.getElem?_set_ne elsewhere] at busy
    obtain ⟨other, known, there⟩ := valid.used index busy
    refine ⟨other, List.mem_filter.mpr ⟨known, ?_⟩, there⟩
    simp only [ne_eq, decide_not, Bool.not_eq_true', decide_eq_false_iff_not]
    intro same
    exact elsewhere (valid.slot_unique live known same ▸ there)
  counted := by
    have counted := countP_filter_handle valid.handles live
    rw [← valid.counted] at counted
    show (if slot.toolLoop then ledger.count - 1 else ledger.count) = _
    split <;> simp_all
    omega
  bounded := by
    have bounded := valid.bounded
    show (if slot.toolLoop then ledger.count - 1 else ledger.count) ≤ ledger.limit
    split <;> omega
  positive := valid.positive
  alone := by
    intro one other known loop
    obtain ⟨known, apart⟩ := List.mem_filter.mp known
    have only := valid.alone one other known loop
    rw [only] at live
    rw [List.mem_singleton.mp live] at apart
    simp at apart

theorem Valid.step (valid : ledger.Valid) (step : ledger.Step next) : next.Valid := by
  cases step with
  | handle => exact valid.handle
  | limit limit positive idle => exact valid.limit positive idle
  | opened slot idle fresh single room alone =>
      exact valid.opened slot idle fresh single room alone
  | closed slot live => exact valid.closed slot live

end Ledger

/-! ## The ledger of a router -/

def Task.slot (task : Task) : Slot :=
  ⟨task.handle, task.endpoint, task.toolLoop⟩

def State.ledger (state : State) : Ledger where
  busy := state.endpoints.map Endpoint.busy
  limit := state.toolTaskLimit
  count := state.toolTaskCount
  slots := state.tasks.map Task.slot
  next := state.nextHandle

theorem Task.Changes.slot {task next : Task} (changes : task.Changes next) :
    next.slot = task.slot :=
  congrArg (fun submission : Submission =>
    (⟨submission.handle, submission.endpoint, submission.maxModelTurns ≠ 0⟩ : Slot))
    changes.submission

namespace State

variable {state next : State}

theorem setBusy_busy (index : Nat) (busy : Bool) :
    (state.setBusy index busy).endpoints.map Endpoint.busy =
      (state.endpoints.map Endpoint.busy).set index busy := by
  apply List.ext_getElem?
  intro position
  simp only [State.setBusy, List.getElem?_map, List.getElem?_modify, List.getElem?_set,
    List.length_map]
  by_cases same : index = position
  · subst same
    by_cases inside : index < state.endpoints.length <;> simp [inside]
  · simp [same]

theorem anyBusy_iff : state.anyBusy = true ↔ true ∈ state.ledger.busy := by
  simp [State.anyBusy, State.ledger]

theorem checkAdmission_ok {request : Request} {maxModelTurns : Nat} {world : SubmitWorld}
    {parent : Authority} (admitted : state.checkAdmission request maxModelTurns world = .ok parent) :
    (state.toolTaskLimit = 1 → state.toolTaskCount = 0) ∧
      (maxModelTurns ≠ 0 → state.toolTaskCount < state.toolTaskLimit) ∧
      (maxModelTurns ≠ 0 → state.toolTaskLimit = 1 → true ∉ state.ledger.busy) := by
  rw [State.checkAdmission] at admitted
  split at admitted
  next => cases admitted
  split at admitted
  next => cases admitted
  next single =>
    split at admitted
    next => cases admitted
    split at admitted
    next => cases admitted
    next room =>
      split at admitted
      next => cases admitted
      next alone =>
        rw [← anyBusy_iff]
        refine ⟨by simpa using single, ?_, ?_⟩
        · intro loop
          exact Nat.lt_of_not_le fun full => room ⟨loop, full⟩
        · intro loop one busy
          exact alone ⟨loop, one, busy⟩

/-- Every change of a router leaves its ledger alone or is one of its steps. -/
theorem Change.ledger (change : state.Change next) :
    next.ledger = state.ledger ∨ state.ledger.Step next.ledger := by
  cases change with
  | task handle change allowed =>
      left
      have slots : (state.updateTask handle change).tasks.map Task.slot =
          state.tasks.map Task.slot := by
        rw [updateTask, List.map_map]
        apply List.map_congr_left
        intro task live
        simp only [Function.comp_apply]
        split
        next same => exact (allowed task live same).slot
        next => rfl
      simp only [State.ledger, slots]
      rfl
  | groups groups => exact .inl rfl
  | adopted handles groups =>
      right
      have slots : (state.tasks.map fun task => if task.handle ∈ handles then
          { task with group := some state.nextHandle } else task).map Task.slot =
          state.tasks.map Task.slot := by
        rw [List.map_map]
        apply List.map_congr_left
        intro task _
        simp only [Function.comp_apply]
        split <;> rfl
      have handed : state.ledger.Step _ := .handle
      simp only [State.ledger, slots] at handed ⊢
      exact handed
  | limit limit positive idle =>
      refine .inr (.limit limit positive ?_)
      rw [← anyBusy_iff]
      simp [idle]
  | opened request maxModelTurns admissionId world parent selection busy admitted selected task
      built =>
      right
      obtain ⟨single, room, alone⟩ := checkAdmission_ok admitted
      obtain ⟨endpoint, there, idle, -⟩ := select_chosen selected
      have opened := @Ledger.Step.opened state.ledger task.slot ?_ ?_ single ?_ ?_
      · simp only [State.ledger, setBusy_busy] at opened ⊢
        exact opened
      · show (state.endpoints.map Endpoint.busy)[task.endpoint]? = some false
        rw [List.getElem?_map, built, buildTask, there, ← idle]
        rfl
      · rw [built]
        rfl
      · intro loop
        exact room (by simpa [built, Task.slot, Task.toolLoop, buildTask] using loop)
      · intro loop
        exact alone (by simpa [built, Task.slot, Task.toolLoop, buildTask] using loop)
  | closed task found ended =>
      right
      have live : task.slot ∈ state.ledger.slots :=
        List.mem_map_of_mem (task?_eq_some found).1
      have closed := Ledger.Step.closed task.slot live
      convert closed using 1
      simp only [State.ledger, setBusy_busy, List.filter_map]
      rfl

theorem create_valid {configs : List EndpointConfig} {authorityAgent authorityRegistry : Nat}
    (created : State.create configs authorityAgent authorityRegistry = .ok state) :
    state.ledger.Valid := by
  obtain ⟨-, rfl⟩ := create_eq created
  constructor <;> simp [State.ledger]

theorem run_valid {configs : List EndpointConfig} {authorityAgent authorityRegistry : Nat}
    (created : State.create configs authorityAgent authorityRegistry = .ok state)
    (calls : List Call) : (state.run calls).ledger.Valid := by
  refine (run_invariant (fun state => state.ledger.Valid) ?_ (create_allocated created).2
    (create_valid created) calls).2
  intro state next _ valid change
  rcases change.ledger with same | step
  · rw [same]
    exact valid
  · exact valid.step step

/-- The flags and counts of a router agree with its live tasks. -/
structure Accounted (state : State) : Prop where
  busy_iff : ∀ index endpoint, state.endpoints[index]? = some endpoint →
    (endpoint.busy = true ↔ ∃ task ∈ state.tasks, task.endpoint = index)
  exclusive : state.tasks.Pairwise fun task other => task.endpoint ≠ other.endpoint
  counted : state.toolTaskCount = state.tasks.countP Task.toolLoop
  bounded : state.toolTaskCount ≤ state.toolTaskLimit
  alone : state.toolTaskLimit = 1 → ∀ task ∈ state.tasks, task.toolLoop → state.tasks = [task]

theorem accounted_of_valid (valid : state.ledger.Valid) : state.Accounted where
  busy_iff := by
    intro index endpoint there
    have flag : state.ledger.busy[index]? = some endpoint.busy := by
      simp [State.ledger, there]
    constructor
    · intro busy
      rw [busy] at flag
      obtain ⟨slot, live, same⟩ := valid.used index flag
      obtain ⟨task, member, rfl⟩ := List.mem_map.mp live
      exact ⟨task, member, same⟩
    · rintro ⟨task, member, rfl⟩
      have located := valid.located task.slot (List.mem_map_of_mem member)
      exact Option.some.inj (flag.symm.trans located)
  exclusive := by
    have exclusive := valid.exclusive
    simp only [State.ledger, List.map_map, List.nodup_iff_pairwise_ne, List.pairwise_map] at exclusive
    exact exclusive
  counted := by
    have counted := valid.counted
    simp only [State.ledger, List.countP_map] at counted
    exact counted
  bounded := valid.bounded
  alone := by
    intro one task member loop
    have only := valid.alone one task.slot (List.mem_map_of_mem member) loop
    obtain ⟨other, tasks, _⟩ := List.map_eq_singleton_iff.mp only
    rw [tasks] at member ⊢
    rw [List.mem_singleton.mp member]

theorem perform_submits_failed {call : Call} (submits : call.submits)
    (failed : (state.perform call).1 ≠ .ok) : (state.perform call).2 = state := by
  have submit : ∀ request maxModelTurns admission world,
      (state.submit request maxModelTurns admission world).1 ≠ .ok →
      (state.submit request maxModelTurns admission world).2 = state := by
    intro request maxModelTurns admission world failed
    rcases submit_cases request maxModelTurns admission world with ⟨-, same⟩ | ⟨success, -⟩
    · exact same
    · exact absurd success failed
  cases call <;> simp only [Call.submits, Bool.false_eq_true] at submits
  case submit request maxModelTurns admission world =>
    exact submit request maxModelTurns admission world failed
  case submitToolLoop request maxModelTurns world =>
    rw [State.perform, State.submitToolLoop] at failed ⊢
    split
    next => rfl
    next nonzero =>
      rw [if_neg nonzero] at failed
      exact submit request maxModelTurns none world failed

/-- Whatever is called in whatever order on a router: an endpoint is busy exactly when a
live task uses it, no two live tasks share one, the count of tool tasks is right and within
its limit, with limit 1 a tool task is alone, and a failed submission leaves the flags and
the count unchanged. -/
theorem run_accounted {configs : List EndpointConfig} {authorityAgent authorityRegistry : Nat}
    {router : State} (created : State.create configs authorityAgent authorityRegistry = .ok router)
    (calls : List Call) :
    (router.run calls).Accounted ∧
      ∀ call : Call, call.submits → ((router.run calls).perform call).1 ≠ .ok →
        ((router.run calls).perform call).2.endpoints = (router.run calls).endpoints ∧
        ((router.run calls).perform call).2.toolTaskCount = (router.run calls).toolTaskCount := by
  refine ⟨accounted_of_valid (run_valid created calls), ?_⟩
  intro call submits failed
  rw [perform_submits_failed submits failed]
  exact ⟨rfl, rfl⟩

def sampleConfig : EndpointConfig :=
  ⟨"local", 1, 1, 0, "model", "provider", 3, 7, 100, 1000, 1000, 1, 1⟩

/-- A request that the sample endpoint can serve. -/
def sampleRequest : Request :=
  ⟨.execute, 1, 4, 10, 10, 1000, 1000, 100, "thread", "run"⟩

def sampleWorld : SubmitWorld :=
  ⟨some ⟨4, 1⟩, fun _ => some ⟨0, 1⟩, true, 5, .ok, .ok, "execution"⟩

def sampleRouter : State :=
  ⟨[⟨sampleConfig, false⟩], 0, 0, 1, 0, [], [], 0⟩

theorem run_accounted_sample :
    (sampleRouter.run [.submitToolLoop sampleRequest 2 sampleWorld]).tasks.length = 1 ∧
    ((sampleRouter.run [.submitToolLoop sampleRequest 2 sampleWorld]).submit sampleRequest 0 none
      sampleWorld).1 = .ebusy ∧
    (sampleRouter.run [.submitToolLoop sampleRequest 2 sampleWorld]).Accounted := by
  have created : State.create [sampleConfig] 0 0 = .ok sampleRouter := by rfl
  exact ⟨by decide +kernel, by decide +kernel,
    (run_accounted created [.submitToolLoop sampleRequest 2 sampleWorld]).1⟩

end State

end TurboAgent.Router
