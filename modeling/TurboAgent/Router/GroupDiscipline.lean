import TurboAgent.Router.Run

/-!
# Groups over runs

A group owns its members from its adoption to its release.  What a call can do to groups and
to the seats of tasks in them is said once, as a step; that every member of a group sits in it,
that a recorded failure stays and that nothing is handed over twice follow from the steps.
-/

namespace TurboAgent.Router

/-! ## Steps of groups -/

/-- A task and the group it belongs to. -/
structure Seat where
  (handle maxModelTurns : Nat)
  group : Option Nat
  deriving DecidableEq

def Task.seat (task : Task) : Seat :=
  ⟨task.handle, task.maxModelTurns, task.group⟩

def State.seats (state : State) : List Seat :=
  state.tasks.map Task.seat

/-- What a group keeps while it lives. -/
structure Group.Advances (group next : Group) : Prop where
  handle : next.handle = group.handle
  id : next.id = group.id
  members : next.members = group.members
  failureCode : group.failureCode ≠ .ok → next.failureCode = group.failureCode
  inputBuilt : group.inputBuilt = true → next.inputBuilt = true
  resultsTaken : group.resultsTaken = true → next.resultsTaken = true

theorem Group.Advances.refl (group : Group) : group.Advances group :=
  ⟨rfl, rfl, rfl, fun _ => rfl, fun built => built, fun taken => taken⟩

variable {group : Group}

theorem Group.Advances.trans {next last : Group} (first : group.Advances next)
    (second : next.Advances last) : group.Advances last where
  handle := second.handle.trans first.handle
  id := second.id.trans first.id
  members := second.members.trans first.members
  failureCode failed := by
    have kept := first.failureCode failed
    rw [second.failureCode (kept ▸ failed), kept]
  inputBuilt := second.inputBuilt ∘ first.inputBuilt
  resultsTaken := second.resultsTaken ∘ first.resultsTaken

namespace State

/-- The groups live on, each one keeping what it has to. -/
def Advances (state next : State) : Prop :=
  ∃ change : Group → Group, (∀ group ∈ state.groups, group.Advances (change group)) ∧
    next.groups = state.groups.map change

/-- What a call does to the groups. -/
inductive GroupStep (state next : State) : Prop where
  /-- Every task keeps its seat. -/
  | kept (seats : next.seats = state.seats) (advances : state.Advances next)
      (handles : next.nextHandle = state.nextHandle)
  /-- A new task sits alone. -/
  | opened (maxModelTurns : Nat)
      (seats : next.seats = ⟨state.nextHandle, maxModelTurns, none⟩ :: state.seats)
      (groups : next.groups = state.groups) (handles : next.nextHandle = state.nextHandle + 1)
  /-- A task that sat alone goes. -/
  | closed (handle : Nat) (alone : ∀ seat ∈ state.seats, seat.handle = handle → seat.group = none)
      (seats : next.seats = state.seats.filter fun seat => seat.handle ≠ handle)
      (groups : next.groups = state.groups) (handles : next.nextHandle = state.nextHandle)
  /-- Tasks that sat alone form a group. -/
  | adopted (group : Group) (fresh : group.handle = state.nextHandle) (distinct : group.members.Nodup)
      (alone : ∀ handle ∈ group.members, ⟨handle, 0, none⟩ ∈ state.seats)
      (seats : next.seats = state.seats.map fun seat =>
        if seat.handle ∈ group.members then { seat with group := some group.handle } else seat)
      (groups : next.groups = group :: state.groups)
      (handles : next.nextHandle = state.nextHandle + 1)
  /-- A group goes with its members. -/
  | released (group : Group) (known : group ∈ state.groups)
      (seats : next.seats = state.seats.filter fun seat => seat.handle ∉ group.members)
      (groups : next.groups = state.groups.filter fun other => other.handle ≠ group.handle)
      (handles : next.nextHandle = state.nextHandle)

/-- Every member of a group sits in it. -/
structure Grouped (state : State) : Prop where
  distinct : (state.groups.map Group.handle).Nodup
  given : ∀ group ∈ state.groups, group.handle < state.nextHandle
  members : ∀ group ∈ state.groups, group.members.Nodup
  seated : ∀ group ∈ state.groups, ∀ handle ∈ group.members,
    ⟨handle, 0, some group.handle⟩ ∈ state.seats

variable {state next : State}

theorem Unique.seat_eq (unique : state.Unique) {seat other : Seat} (left : seat ∈ state.seats)
    (right : other ∈ state.seats) (same : seat.handle = other.handle) : seat = other := by
  obtain ⟨task, member, rfl⟩ := List.mem_map.mp left
  obtain ⟨task', member', rfl⟩ := List.mem_map.mp right
  rw [List.inj_on_of_nodup_map unique member member' same]

/-- Every step keeps the members of the groups in their seats. -/
theorem Grouped.step (grouped : state.Grouped) (unique : state.Unique)
    (step : state.GroupStep next) : next.Grouped := by
  cases step with
  | kept seats advances handles =>
      obtain ⟨change, keeps, groups⟩ := advances
      have stems : ∀ group ∈ next.groups, ∃ before ∈ state.groups, before.Advances group := by
        intro group member
        rw [groups] at member
        obtain ⟨before, known, rfl⟩ := List.mem_map.mp member
        exact ⟨before, known, keeps before known⟩
      refine ⟨?_, ?_, ?_, ?_⟩
      · have same : state.groups.map (Group.handle ∘ change) = state.groups.map Group.handle :=
          List.map_congr_left fun group known => (keeps group known).handle
        rw [groups, List.map_map, same]
        exact grouped.distinct
      · intro group member
        obtain ⟨before, known, advances⟩ := stems group member
        rw [advances.handle, handles]
        exact grouped.given before known
      · intro group member
        obtain ⟨before, known, advances⟩ := stems group member
        rw [advances.members]
        exact grouped.members before known
      · intro group member
        obtain ⟨before, known, advances⟩ := stems group member
        rw [advances.members, advances.handle, seats]
        exact grouped.seated before known
  | opened maxModelTurns seats groups handles =>
      refine ⟨groups ▸ grouped.distinct, ?_, groups ▸ grouped.members, ?_⟩
      · intro group member
        rw [groups] at member
        rw [handles]
        exact Nat.lt_succ_of_lt (grouped.given group member)
      · intro group member handle isMember
        rw [groups] at member
        rw [seats]
        exact List.mem_cons_of_mem _ (grouped.seated group member handle isMember)
  | closed handle alone seats groups handles =>
      refine ⟨groups ▸ grouped.distinct, ?_, groups ▸ grouped.members, ?_⟩
      · rw [groups, handles]
        exact grouped.given
      · intro group member other isMember
        rw [groups] at member
        have seat := grouped.seated group member other isMember
        rw [seats, List.mem_filter, decide_eq_true_eq]
        refine ⟨seat, fun same => ?_⟩
        cases alone _ seat same
  | adopted group fresh distinct alone seats groups handles =>
      refine ⟨?_, ?_, ?_, ?_⟩
      · rw [groups, List.map_cons, List.nodup_cons]
        refine ⟨?_, grouped.distinct⟩
        intro member
        obtain ⟨other, known, same⟩ := List.mem_map.mp member
        have older := grouped.given other known
        rw [same, fresh] at older
        exact Nat.lt_irrefl _ older
      · intro other member
        rw [groups] at member
        rw [handles]
        rcases List.mem_cons.mp member with rfl | known
        · rw [fresh]
          exact Nat.lt_succ_self _
        · exact Nat.lt_succ_of_lt (grouped.given other known)
      · rw [groups]
        exact List.forall_mem_cons.mpr ⟨distinct, grouped.members⟩
      · intro other member handle isMember
        rw [groups] at member
        rw [seats, List.mem_map]
        rcases List.mem_cons.mp member with rfl | known
        · refine ⟨_, alone handle isMember, ?_⟩
          rw [if_pos isMember]
        · have seat := grouped.seated other known handle isMember
          refine ⟨_, seat, if_neg ?_⟩
          intro both
          have same := unique.seat_eq seat (alone handle both) rfl
          cases same
  | released group known seats groups handles =>
      refine ⟨?_, ?_, ?_, ?_⟩
      · rw [groups]
        exact grouped.distinct.sublist (List.filter_sublist.map _)
      · intro other member
        rw [groups] at member
        rw [handles]
        exact grouped.given other (List.mem_filter.mp member).1
      · intro other member
        rw [groups] at member
        exact grouped.members other (List.mem_filter.mp member).1
      · intro other member handle isMember
        rw [groups, List.mem_filter, decide_eq_true_eq] at member
        obtain ⟨isOther, apart⟩ := member
        have seat := grouped.seated other isOther handle isMember
        rw [seats, List.mem_filter, decide_eq_true_eq]
        refine ⟨seat, fun both => ?_⟩
        have same := unique.seat_eq seat (grouped.seated group known handle both) rfl
        rw [Seat.mk.injEq, Option.some.injEq] at same
        exact apart same.2.2

/-! ## What each call does -/

end State

namespace Task

variable (task : Task)

theorem cancel_seat (signalled : Status) : (task.cancel signalled).2.seat = task.seat := by
  fun_cases cancel task signalled <;> rfl

theorem pollInternal_seat (nowMs : Nat) (cancelled : Status) :
    (task.pollInternal nowMs cancelled).2.seat = task.seat := by
  fun_cases pollInternal task nowMs cancelled <;> rfl

theorem poll_seat (nowMs : Nat) (cancelled : Status) :
    (task.poll nowMs cancelled).2.seat = task.seat := by
  rw [poll]
  split
  next => rfl
  next => exact task.pollInternal_seat nowMs cancelled

theorem heartbeat_seat (nowMs : Nat) (cancelled : Status) :
    (task.heartbeat nowMs cancelled).2.seat = task.seat := by
  have polled := task.poll_seat nowMs cancelled
  rw [heartbeat]
  split
  next after result =>
    rw [result] at polled
    split <;> exact polled
  next status after _ result =>
    rw [result] at polled
    exact polled

theorem takeResult_seat (authorityCurrent : Bool) (recorded : Status) :
    (task.takeResult authorityCurrent recorded).2.seat = task.seat := by
  fun_cases takeResult task authorityCurrent recorded <;> rfl

theorem review_seat (approved : Bool) (world : ReviewWorld) :
    (task.review approved world).2.seat = task.seat := by
  fun_cases review task approved world <;> rfl

theorem finish_seat (rc : Status) (summary : Option Summary) (state : Option RunState) :
    (task.finish rc summary state).seat = task.seat := by
  have completed : (task.loopComplete summary state).2.seat = task.seat := by
    fun_cases loopComplete task summary state <;> rfl
  rw [finish]
  split
  next => rfl
  split
  next => exact completed
  next => rfl

end Task

namespace State

variable {state next : State}

theorem Advances.refl (state : State) : state.Advances state :=
  ⟨id, fun group _ => .refl group, (List.map_id _).symm⟩

theorem Advances.of_groups (groups : next.groups = state.groups) : state.Advances next := by
  obtain ⟨change, keeps, same⟩ := Advances.refl state
  exact ⟨change, keeps, groups.trans same⟩

theorem Advances.trans {last : State} (first : state.Advances next) (second : next.Advances last) :
    state.Advances last := by
  obtain ⟨change, keeps, groups⟩ := first
  obtain ⟨change', keeps', groups'⟩ := second
  refine ⟨change' ∘ change, ?_, ?_⟩
  · intro group known
    have kept : change group ∈ next.groups := groups ▸ List.mem_map_of_mem known
    exact (keeps group known).trans (keeps' _ kept)
  · rw [groups', groups, List.map_map]

theorem updateGroup_advances (groupHandle : Nat) {change : Group → Group}
    (keeps : ∀ group ∈ state.groups, group.handle = groupHandle → group.Advances (change group)) :
    state.Advances (state.updateGroup groupHandle change) := by
  refine ⟨fun group => if group.handle = groupHandle then change group else group, ?_, rfl⟩
  intro group known
  dsimp only
  split
  next same => exact keeps group known same
  next => exact .refl group

theorem updateTask_seats (handle : Nat) {change : Task → Task}
    (keeps : ∀ task : Task, (change task).seat = task.seat) :
    (state.updateTask handle change).seats = state.seats := by
  rw [seats, updateTask, List.map_map]
  apply List.map_congr_left
  intro task _
  simp only [Function.comp_apply]
  split
  next => exact keeps task
  next => rfl

/-- Tasks and groups go on without a new handle. -/
structure Carries (state next : State) : Prop where
  seats : next.seats = state.seats
  advances : state.Advances next
  handles : next.nextHandle = state.nextHandle

theorem Carries.refl (state : State) : state.Carries state :=
  ⟨rfl, .refl state, rfl⟩

theorem Carries.trans {last : State} (first : state.Carries next) (second : next.Carries last) :
    state.Carries last :=
  ⟨second.seats.trans first.seats, first.advances.trans second.advances,
    second.handles.trans first.handles⟩

theorem Carries.step (carries : state.Carries next) : state.GroupStep next :=
  .kept carries.seats carries.advances carries.handles

theorem updateTask_carries (handle : Nat) {change : Task → Task}
    (keeps : ∀ task : Task, (change task).seat = task.seat) :
    state.Carries (state.updateTask handle change) :=
  ⟨updateTask_seats handle keeps, .of_groups rfl, rfl⟩

theorem updateGroup_carries (groupHandle : Nat) {change : Group → Group}
    (keeps : ∀ group ∈ state.groups, group.handle = groupHandle → group.Advances (change group)) :
    state.Carries (state.updateGroup groupHandle change) :=
  ⟨rfl, updateGroup_advances groupHandle keeps, rfl⟩

theorem onTask_carries (handle : Nat) {change : Task → Status × Task}
    (keeps : ∀ task : Task, (change task).2.seat = task.seat) :
    state.Carries (state.onTask handle change).2 := by
  rw [onTask]
  split
  next => exact .refl state
  next => exact updateTask_carries handle keeps

theorem halt_advances (group : Group) (reason : Status) :
    group.Advances { group with failureCode := group.halt reason } :=
  ⟨rfl, rfl, rfl, fun failed => if_neg failed, fun built => built, fun taken => taken⟩

theorem pollMember_carries (world : GroupWorld) (nowMs : Nat) (first : Status × State)
    (handle : Nat) : first.2.Carries (pollMember world nowMs first handle).2 := by
  rw [pollMember]
  split
  next => exact .refl _
  exact updateTask_carries handle fun task =>
    task.pollInternal_seat nowMs (world.cancelled handle)

theorem pollMembers_carries (world : GroupWorld) (nowMs : Nat) (members : List Nat)
    (first : Status × State) :
    first.2.Carries (members.foldl (pollMember world nowMs) first).2 := by
  induction members generalizing first with
  | nil => exact .refl _
  | cons handle members ih => exact (pollMember_carries world nowMs first handle).trans (ih _)

theorem pollMembers_groups (world : GroupWorld) (nowMs : Nat) (members : List Nat)
    (first : Status × State) :
    (members.foldl (pollMember world nowMs) first).2.groups = first.2.groups := by
  induction members generalizing first with
  | nil => rfl
  | cons handle members ih =>
      have round : (pollMember world nowMs first handle).2.groups = first.2.groups := by
        rw [pollMember]
        split <;> rfl
      exact (ih _).trans round

theorem Grouped.group_eq (grouped : state.Grouped) {other : Group} {groupHandle : Nat}
    (found : state.group? groupHandle = some group) (known : other ∈ state.groups)
    (same : other.handle = groupHandle) : other = group := by
  have isGroup := List.mem_of_find?_eq_some found
  have named : group.handle = groupHandle := by simpa using List.find?_some found
  exact List.inj_on_of_nodup_map grouped.distinct known isGroup (same.trans named.symm)

theorem pollGroup_carries (grouped : state.Grouped) (groupHandle nowMs : Nat)
    (world : GroupWorld) : state.Carries (state.pollGroup groupHandle nowMs world).2 := by
  have observed : state.Carries (state.updateGroup groupHandle fun group =>
      { group with observedMs := nowMs }) :=
    updateGroup_carries groupHandle fun group _ _ => ⟨rfl, rfl, rfl, fun _ => rfl, id, id⟩
  rw [pollGroup]
  split
  next => exact .refl state
  next group found =>
    split
    next => exact .refl state
    split
    next => exact .refl state
    have polled := observed.trans (pollMembers_carries world nowMs group.members (.ok,
      state.updateGroup groupHandle fun group => { group with observedMs := nowMs }))
    have same := pollMembers_groups world nowMs group.members (.ok,
      state.updateGroup groupHandle fun group => { group with observedMs := nowMs })
    dsimp only
    split
    next => exact polled
    refine polled.trans (updateGroup_carries groupHandle ?_)
    intro other known named
    rw [same] at known
    obtain ⟨before, isBefore, rfl⟩ := List.mem_map.mp known
    have code : before.failureCode = group.failureCode := by
      have isNamed : before.handle = groupHandle := by
        by_cases here : before.handle = groupHandle
        · exact here
        · rw [if_neg here] at named
          exact named
      rw [grouped.group_eq found isBefore isNamed]
    split <;> exact ⟨rfl, rfl, rfl, fun failed => (if_neg (code ▸ failed)).trans code.symm,
      fun built => built, fun taken => taken⟩

theorem heartbeatGroup_carries (grouped : state.Grouped) (groupHandle index nowMs : Nat)
    (world : GroupWorld) :
    state.Carries (state.heartbeatGroup groupHandle index nowMs world).2 := by
  have polled := pollGroup_carries grouped groupHandle nowMs world
  rw [heartbeatGroup]
  split
  next => exact .refl state
  split
  next => exact .refl state
  split
  next after result =>
    rw [result] at polled
    split
    next => exact polled
    next => exact polled.trans (updateTask_carries _ fun _ => rfl)
  next status after _ result =>
    rw [result] at polled
    exact polled

theorem cancelGroup_carries (groupHandle : Nat) :
    state.Carries (state.cancelGroup groupHandle).2 := by
  fun_cases cancelGroup state groupHandle
  case case3 => exact updateGroup_carries _ fun group _ _ => halt_advances group _
  all_goals exact .refl state

theorem takeMember_carries (groupHandle : Nat) (before : Taken) (handle : Nat) :
    before.state.Carries (takeMember groupHandle before handle).state := by
  fun_cases takeMember groupHandle before handle
  case case4 =>
    have given : before.state.Carries (before.state.updateTask handle Task.giveResult) :=
      updateTask_carries handle fun _ => rfl
    refine given.trans (updateGroup_carries groupHandle fun _ _ _ => ?_)
    exact ⟨rfl, rfl, rfl, fun _ => rfl, fun built => built, fun _ => rfl⟩
  all_goals exact .refl _

theorem takeMembers_carries (groupHandle : Nat) (members : List Nat) (before : Taken) :
    before.state.Carries (members.foldl (takeMember groupHandle) before).state := by
  induction members generalizing before with
  | nil => exact .refl _
  | cons handle members ih => exact (takeMember_carries groupHandle before handle).trans (ih _)

theorem takeResults_carries (groupHandle capacity : Nat) (host : Option (Nat × String))
    (authorityCurrent : Nat → Bool) (recorded : Status) :
    state.Carries (state.takeResults groupHandle capacity host authorityCurrent recorded).state := by
  rw [takeResults]
  split
  next => exact .refl state
  next group _ =>
    split
    next => exact .refl state
    split
    next =>
      split
      next => exact .refl state
      next => exact takeMembers_carries groupHandle group.members ⟨.ok, [], state⟩
    next => exact .refl state

theorem buildInput_carries (groupHandle : Nat) (hostTask : String) (host : Option (Nat × String))
    (world : BuildWorld) :
    state.Carries (state.buildInput groupHandle hostTask host world).2.2 := by
  fun_cases buildInput state groupHandle hostTask host world
  case case6 => exact updateGroup_carries _ fun group _ _ => halt_advances group _
  case case11 =>
    exact updateGroup_carries _ fun _ _ _ =>
      ⟨rfl, rfl, rfl, fun _ => rfl, fun _ => rfl, fun taken => taken⟩
  all_goals exact .refl state

theorem setToolTaskLimit_carries (limit : Nat) :
    state.Carries (state.setToolTaskLimit limit).2 := by
  fun_cases setToolTaskLimit state limit
  case case3 => exact ⟨rfl, .of_groups rfl, rfl⟩
  all_goals exact .refl state

theorem submit_step (request : Request) (maxModelTurns : Nat)
    (admission : Option (Nat × String)) (world : SubmitWorld) :
    state.GroupStep (state.submit request maxModelTurns admission world).2 := by
  rw [submit]
  split
  next => exact (Carries.refl state).step
  split
  next => exact (Carries.refl state).step
  split
  next => exact (Carries.refl state).step
  split
  next => exact (Carries.refl state).step
  split
  next => exact (Carries.refl state).step
  rw [start]
  dsimp only
  split
  next => split <;> exact .kept rfl (.of_groups rfl) rfl
  next => split <;> exact .opened maxModelTurns rfl rfl rfl

theorem releaseTask_step (unique : state.Unique) (handle : Nat) :
    state.GroupStep (state.releaseTask handle).2 := by
  rw [releaseTask]
  split
  next => exact (Carries.refl state).step
  next task found =>
    split
    next => exact (Carries.refl state).step
    next ungrouped =>
      split
      next => exact (Carries.refl state).step
      refine .closed handle ?_ ?_ rfl rfl
      · intro seat member same
        obtain ⟨other, known, rfl⟩ := List.mem_map.mp member
        have isTask := unique.task?_of_mem known
        rw [show other.handle = handle from same, found] at isTask
        cases isTask
        exact Option.not_isSome_iff_eq_none.mp ungrouped
      · show (state.tasks.filter _).map Task.seat = (state.tasks.map Task.seat).filter _
        rw [List.filter_map]
        rfl

theorem adoptable_ok {first task : Task} {previous : List Task}
    (passed : adoptable first previous task = .ok) :
    task.maxModelTurns = 0 ∧ task.group = none ∧
      ∀ other ∈ previous, other.handle ≠ task.handle := by
  rw [adoptable] at passed
  split at passed
  next => cases passed
  next single =>
    split at passed
    next => cases passed
    next alone =>
      split at passed
      next => cases passed
      split at passed
      next => cases passed
      split at passed
      next => cases passed
      next apart =>
        refine ⟨?_, Option.not_isSome_iff_eq_none.mp alone, ?_⟩
        · by_contra loop
          exact single (.inl (by simpa [Task.toolLoop] using loop))
        · intro other member same
          exact apart (List.any_eq_true.mpr ⟨other, member, by simp [same]⟩)

theorem adoptCheck_ok {first : Task} (tasks : List Task) : ∀ previous : List Task,
    adoptCheck first previous tasks = .ok →
      (∀ task ∈ tasks, task.maxModelTurns = 0 ∧ task.group = none) ∧
      (tasks.map Task.handle).Nodup ∧
      ∀ task ∈ tasks, ∀ other ∈ previous, other.handle ≠ task.handle := by
  induction tasks with
  | nil =>
      intro previous _
      simp
  | cons task tasks ih =>
      intro previous passed
      rw [adoptCheck] at passed
      split at passed
      next accepted =>
        obtain ⟨alone, distinct, apart⟩ := ih _ passed
        obtain ⟨single, ungrouped, others⟩ := adoptable_ok accepted
        refine ⟨List.forall_mem_cons.mpr ⟨⟨single, ungrouped⟩, alone⟩, ?_, ?_⟩
        · rw [List.map_cons, List.nodup_cons]
          refine ⟨?_, distinct⟩
          intro member
          obtain ⟨later, isLater, same⟩ := List.mem_map.mp member
          exact apart later isLater task (by simp) same.symm
        · refine List.forall_mem_cons.mpr ⟨others, ?_⟩
          intro later isLater other isOther
          exact apart later isLater other (by simp [isOther])
      next refused =>
        exact absurd passed refused

theorem mapM_task? {handles : List Nat} {tasks : List Task}
    (found : handles.mapM state.task? = some tasks) :
    tasks.map Task.handle = handles ∧ ∀ task ∈ tasks, task ∈ state.tasks := by
  induction handles generalizing tasks with
  | nil =>
      cases found
      simp
  | cons handle handles ih =>
      rw [List.mapM_cons] at found
      simp only [Option.bind_eq_bind, Option.bind_eq_some_iff] at found
      obtain ⟨task, isTask, rest, isRest, same⟩ := found
      cases same
      obtain ⟨known, named⟩ := task?_eq_some isTask
      obtain ⟨handlesEq, members⟩ := ih isRest
      rw [List.map_cons, named, handlesEq]
      exact ⟨rfl, List.forall_mem_cons.mpr ⟨known, members⟩⟩

theorem adoptGroup_step (id : String) (handles : List Nat) (allocated : Bool) :
    state.GroupStep (state.adoptGroup id handles allocated).2 := by
  rw [adoptGroup]
  split
  next => exact (Carries.refl state).step
  split
  next => exact (Carries.refl state).step
  next => exact (Carries.refl state).step
  next first rest found =>
    split
    next passed =>
      split
      next => exact (Carries.refl state).step
      obtain ⟨alone, distinct, -⟩ := adoptCheck_ok _ _ passed
      obtain ⟨names, members⟩ := mapM_task? found
      rw [names] at distinct
      refine .adopted ⟨state.nextHandle, id, handles, _, .ok, false, false⟩ rfl distinct ?_ ?_
        rfl rfl
      · intro handle member
        rw [← names] at member
        obtain ⟨task, isTask, rfl⟩ := List.mem_map.mp member
        obtain ⟨single, ungrouped⟩ := alone task isTask
        refine List.mem_map.mpr ⟨task, members task isTask, ?_⟩
        rw [Task.seat, single, ungrouped]
      · show (state.tasks.map _).map Task.seat = (state.tasks.map Task.seat).map _
        rw [List.map_map, List.map_map]
        apply List.map_congr_left
        intro task _
        simp only [Function.comp_apply]
        split
        next member => exact (if_pos member).symm
        next absent => exact (if_neg absent).symm
    next => exact (Carries.refl state).step

theorem releaseMember_tasks {handle : Nat}
    (ended : ∀ task ∈ state.tasks, task.handle = handle → task.execution.finished = true) :
    (releaseMember state handle).tasks = state.tasks.filter (fun task => task.handle ≠ handle) ∧
      (releaseMember state handle).groups = state.groups ∧
      (releaseMember state handle).nextHandle = state.nextHandle := by
  have left : ((state.updateTask handle fun task => { task with group := none }).tasks.filter
      fun task => task.handle ≠ handle) = state.tasks.filter fun task => task.handle ≠ handle := by
    rw [updateTask]
    induction state.tasks with
    | nil => rfl
    | cons task tasks ih =>
        rw [List.map_cons, List.filter_cons, List.filter_cons]
        by_cases here : task.handle = handle
        · rw [if_pos here, if_neg (by simp [here]), if_neg (by simp [here])]
          exact ih
        · rw [if_neg here, if_pos (by simp [here]), if_pos (by simp [here]), ih]
  rw [releaseMember, releaseTask]
  split
  next absent =>
    refine ⟨?_, rfl, rfl⟩
    rw [← left]
    refine (List.filter_eq_self.mpr ?_).symm
    intro task member
    simpa using List.find?_eq_none.mp absent task member
  next task found =>
    obtain ⟨member, named⟩ := task?_eq_some found
    obtain ⟨before, known, same⟩ := List.mem_map.mp member
    have here : before.handle = handle := by
      by_contra other
      rw [if_neg other] at same
      exact other (same ▸ named)
    rw [if_pos here] at same
    have alone : task.group.isSome = false := by
      rw [← same]
      rfl
    have finished : task.execution.finished = true := by
      rw [← same]
      exact ended before known here
    rw [if_neg (by simp [alone]), if_neg (by simp [finished])]
    exact ⟨left, rfl, rfl⟩

theorem releaseMembers_tasks (members : List Nat) : ∀ state : State,
    (∀ task ∈ state.tasks, task.handle ∈ members → task.execution.finished = true) →
      (members.foldl releaseMember state).tasks =
        state.tasks.filter (fun task => task.handle ∉ members) ∧
      (members.foldl releaseMember state).groups = state.groups ∧
      (members.foldl releaseMember state).nextHandle = state.nextHandle := by
  induction members with
  | nil =>
      intro state _
      refine ⟨(List.filter_eq_self.mpr ?_).symm, rfl, rfl⟩
      simp
  | cons handle members ih =>
      intro state ended
      obtain ⟨tasks, groups, handles⟩ := @releaseMember_tasks state handle fun task member same =>
        ended task member (by simp [same])
      obtain ⟨tasks', groups', handles'⟩ := ih (releaseMember state handle) (by
        intro task member isMember
        rw [tasks] at member
        exact ended task (List.mem_filter.mp member).1 (List.mem_cons_of_mem _ isMember))
      rw [List.foldl_cons, tasks', groups', handles', tasks, groups, handles, List.filter_filter]
      refine ⟨?_, rfl, rfl⟩
      apply List.filter_congr
      intro task _
      rw [Bool.eq_iff_iff]
      simp [and_comm]

theorem groupTerminal_ended (unique : state.Unique) (terminal : state.groupTerminal group = true) :
    ∀ task ∈ state.tasks, task.handle ∈ group.members → task.execution.finished = true := by
  intro task known member
  have ended := List.all_eq_true.mp terminal task.handle member
  rw [unique.task?_of_mem known] at ended
  exact ended

theorem releaseGroup_step (unique : state.Unique) (groupHandle : Nat) :
    state.GroupStep (state.releaseGroup groupHandle).2 := by
  rw [releaseGroup]
  split
  next => exact (Carries.refl state).step
  next group found =>
    split
    next => exact (Carries.refl state).step
    next terminal =>
      have named : group.handle = groupHandle := by simpa using List.find?_some found
      obtain ⟨tasks, groups, handles⟩ := releaseMembers_tasks group.members state
        (groupTerminal_ended unique (by simpa using terminal))
      refine .released group (List.mem_of_find?_eq_some found) ?_ ?_ handles
      · show (group.members.foldl releaseMember state).tasks.map Task.seat =
          (state.tasks.map Task.seat).filter _
        rw [tasks, List.filter_map]
        rfl
      · show (group.members.foldl releaseMember state).groups.filter _ = _
        rw [groups, named]

theorem perform_step (unique : state.Unique) (grouped : state.Grouped) (call : Call) :
    state.GroupStep (state.perform call).2 := by
  cases call with
  | setToolTaskLimit limit => exact (setToolTaskLimit_carries limit).step
  | submit request maxModelTurns admission world =>
      exact submit_step request maxModelTurns admission world
  | submitToolLoop request maxModelTurns world =>
      rw [perform, submitToolLoop]
      split
      next => exact (Carries.refl state).step
      next => exact submit_step request maxModelTurns none world
  | review task approved intent world =>
      rw [perform, reviewTask]
      split
      next => exact (Carries.refl state).step
      next => exact (onTask_carries task fun task => task.review_seat approved world).step
  | cancel task signalled =>
      exact (onTask_carries task fun task => task.cancel_seat signalled).step
  | poll task nowMs cancelled =>
      exact (onTask_carries task fun task => task.poll_seat nowMs cancelled).step
  | heartbeat task nowMs cancelled =>
      exact (onTask_carries task fun task => task.heartbeat_seat nowMs cancelled).step
  | takeResult task authorityCurrent recorded =>
      exact (onTask_carries task fun task => task.takeResult_seat authorityCurrent recorded).step
  | release task => exact releaseTask_step unique task
  | adoptGroup id tasks allocated => exact adoptGroup_step id tasks allocated
  | pollGroup group nowMs world => exact (pollGroup_carries grouped group nowMs world).step
  | heartbeatGroup group index nowMs world =>
      exact (heartbeatGroup_carries grouped group index nowMs world).step
  | cancelGroup group => exact (cancelGroup_carries group).step
  | takeGroupResults group capacity host authorityCurrent recorded =>
      exact (takeResults_carries group capacity host authorityCurrent recorded).step
  | buildGroupInput group hostTask host world =>
      exact (buildInput_carries group hostTask host world).step
  | releaseGroup group => exact releaseGroup_step unique group
  | work task => exact (onTask_carries task fun _ => rfl).step
  | finish task rc report result =>
      exact (onTask_carries task fun task =>
        task.finish_seat rc (report.map task.summarize) result).step

/-! ## Runs -/

end State

/-- A task and its execution agree on whether the result was taken. -/
def Task.Marked (task : Task) : Prop :=
  task.taken = task.execution.resultTaken

variable {task : Task}

theorem Task.finish_marked (marked : task.Marked) (rc : Status) (summary : Option Summary)
    (state : Option RunState) : (task.finish rc summary state).Marked := by
  have completed : ∀ rc, { (task.loopComplete summary state).2 with
      execution := (task.loopComplete summary state).2.execution.publish rc summary state }.Marked := by
    intro rc
    fun_cases loopComplete task summary state <;> exact marked
  rw [Task.finish]
  split
  next => exact marked
  split
  next => exact completed _
  next => exact marked

variable {next : Task}

theorem Task.Change.marked (change : task.Change next) (marked : task.Marked) : next.Marked := by
  cases change with
  | work =>
      rw [Task.Marked, Execution.work]
      split <;> exact marked
  | finish rc report state => exact task.finish_marked marked rc (report.map task.summarize) state
  | taken => rfl
  | reviewed => rfl
  | _ => exact marked

theorem Task.Change.unresponsive (change : task.Change next) (lost : task.unresponsive = true) :
    next.unresponsive = true := by
  cases change with
  | finish rc report state =>
      have completed : (task.loopComplete (report.map task.summarize) state).2.unresponsive =
          true := by
        fun_cases loopComplete task (report.map task.summarize) state <;> exact lost
      rw [Task.finish]
      split
      next => exact lost
      split
      next => exact completed
      next => exact lost
  | lost => rfl
  | _ => exact lost

theorem Task.Changes.keeps {Property : Task → Prop} (changes : task.Changes next)
    (keeps : ∀ task next : Task, task.Change next → Property task → Property next)
    (kept : Property task) : Property next := by
  induction changes with
  | refl => exact kept
  | tail _ change ih => exact keeps _ _ change ih

namespace State

variable {state next : State}

/-- The tasks of a property that every change of a task keeps. -/
theorem Change.tasks_keep (change : state.Change next) (Property : Task → Prop)
    (keeps : ∀ task next : Task, task.Change next → Property task → Property next)
    (opens : ∀ handle request maxModelTurns admissionId world parent selection,
      handle = state.nextHandle →
        Property (buildTask handle request maxModelTurns admissionId world parent selection))
    (kept : ∀ task ∈ state.tasks, Property task) : ∀ task ∈ next.tasks, Property task := by
  cases change with
  | task handle change allowed =>
      intro task member
      obtain ⟨before, known, rfl⟩ := List.mem_map.mp member
      split
      next same => exact (allowed before known same).keeps keeps (kept before known)
      next => exact kept before known
  | groups groups => exact kept
  | adopted handles groups =>
      intro task member
      obtain ⟨before, known, rfl⟩ := List.mem_map.mp member
      split
      next => exact keeps _ _ (.grouped _) (kept before known)
      next => exact kept before known
  | limit limit => exact kept
  | opened request maxModelTurns admissionId world parent selection busy _ _ task built =>
      refine List.forall_mem_cons.mpr ⟨?_, kept⟩
      rw [built]
      exact opens _ _ _ _ _ _ _ rfl
  | closed task => exact fun other member => kept other (List.mem_filter.mp member).1

/-- What holds of every router that was created. -/
structure Kept (state : State) : Prop where
  allocated : state.Allocated
  grouped : state.Grouped
  marked : ∀ task ∈ state.tasks, task.Marked

theorem Kept.perform (kept : state.Kept) (call : Call) : (state.perform call).2.Kept := by
  obtain ⟨allocated, marked⟩ := run_invariant (fun state => ∀ task ∈ state.tasks, task.Marked)
    (fun state next _ marked change => change.tasks_keep Task.Marked
      (fun _ _ change => change.marked) (fun _ _ _ _ _ _ _ _ => rfl) marked)
    kept.allocated kept.marked [call]
  exact ⟨allocated, kept.grouped.step kept.allocated.unique
    (perform_step kept.allocated.unique kept.grouped call), marked⟩

theorem Kept.run (kept : state.Kept) (calls : List Call) : (state.run calls).Kept := by
  induction calls generalizing state with
  | nil => exact kept
  | cons call calls ih => exact ih (kept.perform call)

theorem create_kept {configs : List EndpointConfig} {authorityAgent authorityRegistry : Nat}
    (created : State.create configs authorityAgent authorityRegistry = .ok state) :
    state.Kept := by
  obtain ⟨tasks, allocated⟩ := create_allocated created
  have groups : state.groups = [] := by
    obtain ⟨-, rfl⟩ := create_eq created
    rfl
  refine ⟨allocated, ⟨?_, ?_, ?_, ?_⟩, ?_⟩
  · simp [groups]
  · simp [groups]
  · simp [groups]
  · simp [groups]
  · simp [tasks]

/-! ## What stays -/

/-- What a group that was once seen has become. -/
def Follows (group : Group) (state : State) : Prop :=
  group.handle < state.nextHandle ∧
    ∀ later ∈ state.groups, later.handle = group.handle → group.Advances later

theorem Grouped.follows (grouped : state.Grouped) (known : group ∈ state.groups) :
    Follows group state := by
  refine ⟨grouped.given group known, ?_⟩
  intro later isLater same
  rw [List.inj_on_of_nodup_map grouped.distinct isLater known same]
  exact .refl group

theorem Follows.step {group : Group} (follows : Follows group state)
    (step : state.GroupStep next) : Follows group next := by
  obtain ⟨given, advances⟩ := follows
  cases step with
  | kept _ changes handles =>
      obtain ⟨change, keeps, groups⟩ := changes
      refine ⟨handles ▸ given, ?_⟩
      intro later isLater same
      rw [groups] at isLater
      obtain ⟨before, known, rfl⟩ := List.mem_map.mp isLater
      have kept := keeps before known
      exact (advances before known (kept.handle.symm.trans same)).trans kept
  | opened _ _ groups handles => exact ⟨handles ▸ Nat.lt_succ_of_lt given, groups ▸ advances⟩
  | closed _ _ _ groups handles => exact ⟨handles ▸ given, groups ▸ advances⟩
  | adopted fresh isFresh _ _ _ groups handles =>
      refine ⟨handles ▸ Nat.lt_succ_of_lt given, ?_⟩
      intro later isLater same
      rw [groups] at isLater
      rcases List.mem_cons.mp isLater with rfl | known
      · rw [← same, isFresh] at given
        exact absurd given (Nat.lt_irrefl _)
      · exact advances later known same
  | released _ _ _ groups handles =>
      refine ⟨handles ▸ given, ?_⟩
      intro later isLater
      rw [groups] at isLater
      exact advances later (List.mem_filter.mp isLater).1

theorem Follows.run (follows : Follows group state) (kept : state.Kept) (calls : List Call) :
    Follows group (state.run calls) := by
  induction calls generalizing state with
  | nil => exact follows
  | cons call calls ih =>
      exact ih (follows.step (perform_step kept.allocated.unique kept.grouped call))
        (kept.perform call)

theorem Kept.unresponsive (kept : state.Kept) (known : task ∈ state.tasks)
    (lost : task.unresponsive = true) (calls : List Call) :
    ∀ later ∈ (state.run calls).tasks, later.handle = task.handle → later.unresponsive = true := by
  have holds : task.handle < state.nextHandle ∧
      ∀ later ∈ state.tasks, later.handle = task.handle → later.unresponsive = true := by
    refine ⟨kept.allocated.given task known, ?_⟩
    intro later isLater same
    rw [List.inj_on_of_nodup_map kept.allocated.unique isLater known same]
    exact lost
  refine (run_invariant (fun state => task.handle < state.nextHandle ∧
    ∀ later ∈ state.tasks, later.handle = task.handle → later.unresponsive = true) ?_
    kept.allocated holds calls).2.2
  intro state next _ held change
  refine ⟨Nat.lt_of_lt_of_le held.1 ?_, ?_⟩
  · cases change <;> first | exact Nat.le_refl _ | exact Nat.le_succ _
  · refine change.tasks_keep (fun later => later.handle = task.handle →
      later.unresponsive = true) ?_ ?_ held.2
    · intro before after change unresponsive same
      have handles := congrArg Submission.handle change.submission
      exact change.unresponsive (unresponsive (handles.symm.trans same))
    · intro handle _ _ _ _ _ _ fresh same
      have isHandle : handle = task.handle := same
      rw [← isHandle, fresh] at held
      exact absurd held.1 (Nat.lt_irrefl _)

/-! ## What a group hands over -/

variable {authorityCurrent : Nat → Bool}

theorem deliverables_ok {tasks : List Task} (passed : deliverables authorityCurrent tasks = .ok) :
    ∀ task ∈ tasks, task.unresponsive = false ∧ authorityCurrent task.handle = true ∧
      task.taken = false := by
  induction tasks with
  | nil => simp
  | cons task tasks ih =>
      rw [deliverables] at passed
      split at passed
      next accepted =>
        refine List.forall_mem_cons.mpr ⟨?_, ih passed⟩
        rw [deliverable] at accepted
        split at accepted
        next => cases accepted
        next responsive =>
          split at accepted
          next => cases accepted
          next current =>
            split at accepted
            next => cases accepted
            next untaken => exact ⟨by simpa using responsive, by simpa using current,
              by simpa using untaken⟩
      next refused => exact absurd passed refused

/-- The member of a handle, ready to give its result. -/
structure Ready (state : State) (authorityCurrent : Nat → Bool) (handle : Nat) (task : Task) :
    Prop where
  found : state.task? handle = some task
  finished : task.execution.finished = true
  responsive : task.unresponsive = false
  current : authorityCurrent handle = true
  untaken : task.taken = false
  untouched : task.execution.resultTaken = false

variable {handle : Nat}

theorem Kept.seated (kept : state.Kept) (known : group ∈ state.groups)
    (member : handle ∈ group.members) :
    ∃ task, state.task? handle = some task ∧ task ∈ state.tasks ∧
      task.seat = ⟨handle, 0, some group.handle⟩ := by
  obtain ⟨task, isTask, seat⟩ := List.mem_map.mp (kept.grouped.seated group known handle member)
  have named : task.handle = handle := congrArg Seat.handle seat
  refine ⟨task, ?_, isTask, seat⟩
  rw [← named]
  exact kept.allocated.unique.task?_of_mem isTask

theorem Kept.ready (kept : state.Kept) (known : group ∈ state.groups)
    (passed : state.preflight group authorityCurrent = .ok) :
    group.resultsTaken = false ∧
      ∀ handle ∈ group.members, ∃ task, state.Ready authorityCurrent handle task := by
  rw [preflight] at passed
  split at passed
  next => cases passed
  next untaken =>
    split at passed
    next => cases passed
    next terminal =>
      refine ⟨by simpa using untaken, ?_⟩
      intro handle member
      obtain ⟨task, found, isTask, seat⟩ := kept.seated known member
      have named : task.handle = handle := congrArg Seat.handle seat
      obtain ⟨responsive, current, untaken⟩ := deliverables_ok passed task
        (List.mem_filterMap.mpr ⟨handle, member, found⟩)
      have finished := groupTerminal_ended kept.allocated.unique (by simpa using terminal) task
        isTask (named ▸ member)
      exact ⟨task, found, finished, responsive, named ▸ current, untaken,
        (kept.marked task isTask).symm.trans untaken⟩

theorem Ready.peek (ready : state.Ready authorityCurrent handle task) :
    task.execution.peekResult = .ok ⟨task.execution.summary, task.execution.state⟩ := by
  rw [Execution.peekResult, if_neg (by simp [ready.finished]), if_neg (by simp [ready.untouched])]

theorem updateTask_task?_other {other : Nat} (apart : other ≠ handle) {change : Task → Task}
    (keeps : ∀ task : Task, (change task).handle = task.handle) :
    (state.updateTask handle change).task? other = state.task? other := by
  rw [task?, task?, updateTask]
  dsimp only
  induction state.tasks with
  | nil => rfl
  | cons task tasks ih =>
      rw [List.map_cons, List.find?_cons, List.find?_cons]
      by_cases here : task.handle = handle
      · have passes : ¬task.handle = other := fun same => apart (same.symm.trans here)
        rw [if_pos here, keeps, decide_eq_false passes]
        exact ih
      · rw [if_neg here]
        cases decide (task.handle = other) with
        | true => rfl
        | false => exact ih

variable {groupHandle : Nat}

theorem takeMembers_ready (members : List Nat) :
    members.Nodup → ∀ before : Taken, before.status = .ok →
      (∀ handle ∈ members, ∃ task, before.state.Ready authorityCurrent handle task) →
      (members.foldl (takeMember groupHandle) before).status = .ok ∧
      ∃ results, (members.foldl (takeMember groupHandle) before).results =
          before.results ++ results ∧
        List.Forall₂ (fun handle result => ∃ task,
          before.state.Ready authorityCurrent handle task ∧
            result = ⟨task.execution.summary, task.execution.state⟩) members results := by
  induction members with
  | nil => exact fun _ before success _ => ⟨success, [], by simp, .nil⟩
  | cons handle members ih =>
      intro distinct before success ready
      obtain ⟨absent, distinct⟩ := List.nodup_cons.mp distinct
      obtain ⟨task, isReady⟩ := ready handle List.mem_cons_self
      have round : takeMember groupHandle before handle = {
          status := .ok
          results := before.results ++ [⟨task.execution.summary, task.execution.state⟩]
          state := (before.state.updateTask handle Task.giveResult).updateGroup groupHandle
            fun group => { group with resultsTaken := true } } := by
        rw [takeMember, if_neg (by simp [success]), isReady.found]
        dsimp only
        rw [isReady.peek]
      have elsewhere : ∀ other ∈ members, ∀ task,
          (takeMember groupHandle before handle).state.Ready authorityCurrent other task ↔
            before.state.Ready authorityCurrent other task := by
        intro other member task
        have apart : other ≠ handle := fun same => absent (same ▸ member)
        have found : (takeMember groupHandle before handle).state.task? other =
            before.state.task? other := by
          rw [round]
          exact updateTask_task?_other apart fun _ => rfl
        constructor
        · intro ready
          exact { ready with found := found.symm.trans ready.found }
        · intro ready
          exact { ready with found := found.trans ready.found }
      obtain ⟨status, results, isResults, given⟩ := ih distinct (takeMember groupHandle before handle)
        (by rw [round]) (by
          intro other member
          obtain ⟨task, isReady⟩ := ready other (List.mem_cons_of_mem _ member)
          exact ⟨task, (elsewhere other member task).mpr isReady⟩)
      refine ⟨status, _ :: results, ?_, .cons ⟨task, isReady, rfl⟩ ?_⟩
      · rw [List.foldl_cons, isResults, round]
        simp
      · have within : ∀ other ∈ members, other ∈ members := fun _ member => member
        refine ((List.forall₂_and_left members results).mpr ⟨within, given⟩).imp ?_
        rintro other result ⟨member, task, isReady, same⟩
        exact ⟨task, (elsewhere other member task).mp isReady, same⟩

/-- Results are handed over for all members or for none. -/
theorem Kept.takeResults_all (kept : state.Kept) (groupHandle capacity : Nat)
    (host : Option (Nat × String)) (authorityCurrent : Nat → Bool) (recorded : Status) :
    ((state.takeResults groupHandle capacity host authorityCurrent recorded).status ≠ .ok ∧
      (state.takeResults groupHandle capacity host authorityCurrent recorded).results = [] ∧
      (state.takeResults groupHandle capacity host authorityCurrent recorded).state = state) ∨
    ((state.takeResults groupHandle capacity host authorityCurrent recorded).status = .ok ∧
      ∃ group, state.group? groupHandle = some group ∧ group.resultsTaken = false ∧
        List.Forall₂ (fun handle result => ∃ task, state.Ready authorityCurrent handle task ∧
          result = ⟨task.execution.summary, task.execution.state⟩) group.members
          (state.takeResults groupHandle capacity host authorityCurrent recorded).results) := by
  rw [takeResults]
  split
  next => exact .inl ⟨by simp, rfl, rfl⟩
  next group found =>
    split
    next => exact .inl ⟨by simp, rfl, rfl⟩
    split
    next passed =>
      split
      next refused => exact .inl ⟨refused.2, rfl, rfl⟩
      have known := List.mem_of_find?_eq_some found
      obtain ⟨untaken, ready⟩ := kept.ready known passed
      obtain ⟨status, results, isResults, given⟩ := takeMembers_ready
        group.members (kept.grouped.members group known) ⟨.ok, [], state⟩ rfl ready
      refine .inr ⟨status, group, found, untaken, ?_⟩
      rw [isResults]
      exact given
    next refused => exact .inl ⟨refused, rfl, rfl⟩

/-- The group of a call that has handed results over is marked. -/
theorem takeMembers_flag (members : List Nat) (before : Taken)
    (flagged : before.results = [] ∨ ∀ group ∈ before.state.groups, group.handle = groupHandle →
      group.resultsTaken = true) :
    (members.foldl (takeMember groupHandle) before).results = [] ∨
      ∀ group ∈ (members.foldl (takeMember groupHandle) before).state.groups,
        group.handle = groupHandle → group.resultsTaken = true := by
  induction members generalizing before with
  | nil => exact flagged
  | cons handle members ih =>
      refine ih _ ?_
      fun_cases takeMember groupHandle before handle
      case case4 =>
        refine .inr ?_
        intro group member named
        obtain ⟨old, isOld, rfl⟩ := List.mem_map.mp member
        split
        next => rfl
        next other =>
          rw [if_neg other] at named
          exact absurd named other
      all_goals exact flagged

theorem takeResults_flag (groupHandle capacity : Nat) (host : Option (Nat × String))
    (authorityCurrent : Nat → Bool) (recorded : Status) :
    (state.takeResults groupHandle capacity host authorityCurrent recorded).results = [] ∨
      ∀ group ∈ (state.takeResults groupHandle capacity host authorityCurrent
        recorded).state.groups, group.handle = groupHandle → group.resultsTaken = true := by
  rw [takeResults]
  split
  next => exact .inl rfl
  next group _ =>
    split
    next => exact .inl rfl
    split
    next =>
      split
      next => exact .inl rfl
      next => exact takeMembers_flag group.members _ (.inl rfl)
    next => exact .inl rfl

/-- The input that is built is the document of a group whose checks pass. -/
theorem buildInput_some {hostTask : String} {host : Option (Nat × String)} {world : BuildWorld}
    {document : Json}
    (built : (state.buildInput groupHandle hostTask host world).2.1 = some document) :
    ∃ group entries, state.group? groupHandle = some group ∧ group.inputBuilt = false ∧
      group.failureCode = .ok ∧ state.preflight group world.authorityCurrent = .ok ∧
      state.buildMembers world (state.membersOf group) = .ok entries ∧
      document = bundle group hostTask entries ∧
      (state.buildInput groupHandle hostTask host world).2.2 =
        state.updateGroup groupHandle fun group => { group with inputBuilt := true } := by
  revert built
  fun_cases buildInput state groupHandle hostTask host world
  case case11 group found _ unbuilt passed healthy _ entries isEntries input _ _ _ =>
    intro built
    refine ⟨group, entries, found, ?_, ?_, passed, isEntries, (Option.some.inj built).symm, rfl⟩
    · cases isBuilt : group.inputBuilt with
      | false => rfl
      | true => exact absurd (.inl isBuilt) unbuilt
    · exact not_not.mp healthy
  all_goals
    intro built
    cases built

/-- A member whose output the aggregation input lists. -/
structure Contributes (state : State) (world : BuildWorld) (handle : Nat) (task : Task)
    (entry : Json) : Prop where
  found : state.task? handle = some task
  completed : task.execution.status = .completed
  checked : world.authorityCurrent handle = true
  current : world.authorityNow handle = true
  responsive : task.unresponsive = false
  untaken : task.taken = false
  output : ∃ summary result outputText, task.execution.summary = some summary ∧
    task.execution.state = some result ∧ result.pendingToolCalls = 0 ∧
    (∀ kind, result.failureKind = some kind → kind = "") ∧
    result.outputText = some outputText ∧ entry = state.memberEntry task summary outputText

/-- A member that has not failed has completed without a failure kind or pending calls. -/
theorem memberFailure_ok {current : Bool} (healthy : memberFailure task current = .ok)
    (finished : task.execution.finished = true) (untaken : task.taken = false) :
    current = true ∧ task.execution.status = .completed ∧
      ∃ summary result, task.execution.summary = some summary ∧
        task.execution.state = some result ∧ result.pendingToolCalls = 0 ∧
        ∀ kind, result.failureKind = some kind → kind = "" := by
  rw [memberFailure] at healthy
  split at healthy
  next => cases healthy
  next isCurrent =>
    split at healthy
    next => cases healthy
    rw [finished, Bool.not_true, if_neg Bool.false_ne_true] at healthy
    split at healthy
    next => cases healthy
    next => cases healthy
    next => cases healthy
    next completed =>
      rw [untaken, if_neg Bool.false_ne_true] at healthy
      split at healthy
      next => cases healthy
      split at healthy
      next summary result isSummary isResult =>
        split at healthy
        next => cases healthy
        next clean =>
          refine ⟨by simpa using isCurrent, completed, summary, result, isSummary, isResult,
            ?_, ?_⟩
          · by_contra pending
            exact clean (.inl pending)
          · intro kind isKind
            by_contra failed
            exact clean (.inr (by simpa [isKind] using failed))
      next => cases healthy
    next => cases healthy

theorem memberInput_ok {allocated : Bool} {entry : Json}
    (built : state.memberInput task allocated = .ok entry) {summary : Summary} {result : RunState}
    (isSummary : task.execution.summary = some summary)
    (isResult : task.execution.state = some result) :
    ∃ outputText, result.outputText = some outputText ∧
      entry = state.memberEntry task summary outputText := by
  rw [memberInput, Execution.peekResult, isSummary, isResult] at built
  split at built
  next => cases built
  next peeked isPeeked =>
    split at isPeeked
    next => cases isPeeked
    split at isPeeked
    next => cases isPeeked
    cases isPeeked
    split at built
    next _ outputText summaryEq textEq =>
      cases summaryEq
      split at built
      next => cases built
      split at built
      next => cases built
      split at built
      next => cases built
      cases built
      exact ⟨outputText, textEq, rfl⟩
    next => cases built

theorem buildMembers_ok {world : BuildWorld} (handles : List Nat) :
    (∀ handle ∈ handles, ∃ task, state.Ready world.authorityCurrent handle task) →
      ∀ entries, state.buildMembers world (handles.filterMap state.task?) = .ok entries →
      List.Forall₂ (fun handle entry => ∃ task, state.Contributes world handle task entry)
        handles entries := by
  induction handles with
  | nil =>
      intro _ entries built
      cases built
      exact .nil
  | cons handle handles ih =>
      intro ready entries built
      obtain ⟨⟨task, isReady⟩, others⟩ := List.forall_mem_cons.mp ready
      have named := (task?_eq_some isReady.found).2
      rw [List.filterMap_cons_some isReady.found, buildMembers] at built
      split at built
      next healthy =>
        split at built
        next => cases built
        next entry isEntry =>
          cases rest : state.buildMembers world (handles.filterMap state.task?) with
          | error status =>
              rw [rest] at built
              cases built
          | ok later =>
              rw [rest] at built
              cases built
              refine .cons ⟨task, ?_⟩ (ih others later rest)
              obtain ⟨current, completed, summary, result, isSummary, isResult, pending, kind⟩ :=
                memberFailure_ok healthy isReady.finished isReady.untaken
              obtain ⟨outputText, isText, isEntry⟩ := memberInput_ok isEntry isSummary isResult
              exact ⟨isReady.found, completed, isReady.current, named ▸ current,
                isReady.responsive, isReady.untaken, summary, result, outputText, isSummary,
                isResult, pending, kind, isText, isEntry⟩
      next => cases built

/-! ## Calls on single members -/

end State

def Call.direct : Call → Option Nat
  | .review task .. | .cancel task _ | .poll task .. | .heartbeat task .. | .takeResult task ..
  | .release task => some task
  | _ => none

namespace State

variable {state next : State}

theorem onTask_refused (unique : state.Unique) {handle : Nat}
    (found : state.task? handle = some task) {change : Task → Status × Task} {status : Status}
    (refused : change task = (status, task)) : state.onTask handle change = (status, state) := by
  rw [onTask, found]
  dsimp only
  have same : (state.updateTask handle fun task => (change task).2) = state := by
    have tasks : (state.tasks.map fun task =>
        if task.handle = handle then (change task).2 else task) = state.tasks := by
      have self : ∀ other ∈ state.tasks,
          (if other.handle = handle then (change other).2 else other) = id other := by
        intro other known
        split
        next here =>
          have isTask := unique.task?_of_mem known
          rw [here, found] at isTask
          cases isTask
          rw [refused]
          rfl
        next => rfl
      rw [List.map_congr_left self, List.map_id]
    rw [updateTask, tasks]
  rw [refused, same]

/-- No call on a single member of a group succeeds or changes anything. -/
theorem Kept.direct_refused (kept : state.Kept) (known : group ∈ state.groups) {handle : Nat}
    (member : handle ∈ group.members) {call : Call} (direct : call.direct = some handle) :
    (state.perform call).1 ≠ .ok ∧ (state.perform call).2 = state := by
  obtain ⟨task, found, -, seat⟩ := kept.seated known member
  have owned : task.group.isSome = true := by
    have isGroup : task.group = some group.handle := congrArg Seat.group seat
    rw [isGroup]
    rfl
  have single : task.toolLoop = false := by
    have turns : task.maxModelTurns = 0 := congrArg Seat.maxModelTurns seat
    rw [Task.toolLoop, turns]
    rfl
  have polled : ∀ nowMs cancelled, task.poll nowMs cancelled = (.ebusy, task) :=
    fun _ _ => if_pos owned
  have refused : ∀ (status : Status) {change : Task → Status × Task}, status ≠ .ok →
      change task = (status, task) →
        (state.onTask handle change).1 ≠ .ok ∧ (state.onTask handle change).2 = state := by
    intro status change failed same
    rw [onTask_refused kept.allocated.unique found same]
    exact ⟨failed, rfl⟩
  cases call with
  | review task approved intent world =>
      cases direct
      rw [State.perform, reviewTask]
      split
      next => exact ⟨by simp, rfl⟩
      next => exact refused .einval (by simp) (by simp [Task.review, single])
  | cancel task signalled =>
      cases direct
      exact refused .ebusy (by simp) (if_pos owned)
  | poll task nowMs cancelled =>
      cases direct
      exact refused .ebusy (by simp) (polled nowMs cancelled)
  | heartbeat task nowMs cancelled =>
      cases direct
      refine refused .ebusy (by simp) ?_
      rw [Task.heartbeat, polled nowMs cancelled]
  | takeResult task authorityCurrent recorded =>
      cases direct
      exact refused .ebusy (by simp) (if_pos owned)
  | release task =>
      cases direct
      rw [State.perform, releaseTask, found]
      dsimp only
      rw [if_pos owned]
      exact ⟨by simp, rfl⟩
  | _ => cases direct

/-! ## What was handed over in a run -/

end State

/-- What a call on a group hands over. -/
inductive Delivery where
  | input (group : Nat) (document : Json)
  | results (group : Nat) (results : List MemberResult)

namespace State

variable {state next : State}

def delivers (state : State) : Call → Option Delivery
  | .buildGroupInput group hostTask host world =>
      (state.buildInput group hostTask host world).2.1.map (.input group)
  | .takeGroupResults group capacity host authorityCurrent recorded =>
      let results := (state.takeResults group capacity host authorityCurrent recorded).results
      if results.isEmpty then none else some (.results group results)
  | _ => none

/-- What a sequence of calls hands over. -/
def deliveries (state : State) : List Call → List Delivery
  | [] => []
  | call :: calls => (state.delivers call).toList ++ (state.perform call).2.deliveries calls

variable {groupHandle : Nat}

theorem group?_mem (found : state.group? groupHandle = some group) :
    group ∈ state.groups ∧ group.handle = groupHandle := by
  have same := List.find?_some found
  exact ⟨List.mem_of_find?_eq_some found, by simpa using same⟩

theorem delivers_input {call : Call} {document : Json}
    (delivered : state.delivers call = some (.input groupHandle document)) :
    ∃ group ∈ (state.perform call).2.groups, group.handle = groupHandle ∧
      group.inputBuilt = true := by
  cases call with
  | buildGroupInput group hostTask host world =>
      rw [delivers, Option.map_eq_some_iff] at delivered
      obtain ⟨document, built, same⟩ := delivered
      cases same
      obtain ⟨group, entries, found, -, -, -, -, -, after⟩ := buildInput_some built
      obtain ⟨known, named⟩ := group?_mem found
      rw [perform]
      dsimp only
      rw [after]
      refine ⟨_, List.mem_map_of_mem known, ?_⟩
      rw [if_pos named]
      exact ⟨named, rfl⟩
  | takeGroupResults group capacity host authorityCurrent recorded =>
      rw [delivers] at delivered
      split at delivered <;> cases delivered
  | _ => cases delivered

/-- A group whose results were handed over is marked. -/
theorem Kept.delivers_results (kept : state.Kept) {call : Call} {results : List MemberResult}
    (delivered : state.delivers call = some (.results groupHandle results)) :
    ∃ group ∈ (state.perform call).2.groups, group.handle = groupHandle ∧
      group.resultsTaken = true := by
  cases call with
  | takeGroupResults group capacity host authorityCurrent recorded =>
      rw [delivers] at delivered
      split at delivered
      next => cases delivered
      next given =>
        cases delivered
        have carries : state.Carries _ :=
          takeResults_carries groupHandle capacity host authorityCurrent recorded
        have flag := @takeResults_flag state groupHandle capacity host authorityCurrent recorded
        rcases kept.takeResults_all groupHandle capacity host authorityCurrent recorded with
          ⟨-, none, -⟩ | ⟨-, group, found, -, -⟩
        · rw [none] at given
          exact absurd rfl given
        · obtain ⟨known, named⟩ := group?_mem found
          obtain ⟨change, keeps, groups⟩ := carries.advances
          have isNamed := ((keeps group known).handle).trans named
          have isLater : change group ∈ (state.perform (.takeGroupResults groupHandle capacity host
              authorityCurrent recorded)).2.groups := by
            rw [State.perform]
            exact groups ▸ List.mem_map_of_mem known
          refine ⟨change group, isLater, isNamed, ?_⟩
          rcases flag with none | flagged
          · rw [none] at given
            exact absurd rfl given
          · exact flagged _ isLater isNamed
  | buildGroupInput group hostTask host world =>
      rw [delivers, Option.map_eq_some_iff] at delivered
      obtain ⟨document, -, same⟩ := delivered
      cases same
  | _ => cases delivered

/-- What was handed over of a group marks it from then on. -/
theorem Kept.deliveries_marked (kept : state.Kept) (calls : List Call) {groupHandle : Nat}
    {group : Group} (later : group ∈ (state.run calls).groups)
    (named : group.handle = groupHandle) :
    (∀ document, .input groupHandle document ∈ state.deliveries calls →
      group.inputBuilt = true) ∧
    (∀ results, .results groupHandle results ∈ state.deliveries calls →
      group.resultsTaken = true) := by
  induction calls generalizing state with
  | nil =>
      constructor
      · intro document member
        cases member
      · intro results member
        cases member
  | cons call calls ih =>
      have after := kept.perform call
      obtain ⟨inputs, results⟩ := ih after later
      have advanced : ∀ marked ∈ (state.perform call).2.groups, marked.handle = groupHandle →
          marked.Advances group := by
        intro marked isMarked isNamed
        exact ((after.grouped.follows isMarked).run after calls).2 group later
          (named.trans isNamed.symm)
      constructor
      · intro document member
        rcases List.mem_append.mp member with now | rest
        · obtain ⟨marked, isMarked, isNamed, built⟩ :=
            delivers_input (Option.mem_toList.mp now)
          exact (advanced marked isMarked isNamed).inputBuilt built
        · exact inputs document rest
      · intro given member
        rcases List.mem_append.mp member with now | rest
        · obtain ⟨marked, isMarked, isNamed, taken⟩ :=
            kept.delivers_results (Option.mem_toList.mp now)
          exact (advanced marked isMarked isNamed).resultsTaken taken
        · exact results given rest

theorem run_append (state : State) (calls more : List Call) :
    state.run (calls ++ more) = (state.run calls).run more :=
  List.foldl_append

/-- What holds of the groups of a router after a sequence of calls, for every further call. -/
structure GroupsDisciplined (state : State) (calls : List Call) : Prop where
  /-- A recorded failure stays. -/
  sticky : ∀ more, ∀ group ∈ (state.run calls).groups, group.failureCode ≠ .ok →
    ∀ later ∈ (state.run (calls ++ more)).groups, later.handle = group.handle →
      later.failureCode = group.failureCode
  /-- The aggregation input is built once, of members that completed, in index order. -/
  input : ∀ groupHandle hostTask host world document,
    ((state.run calls).buildInput groupHandle hostTask host world).2.1 = some document →
      (∀ earlier, .input groupHandle earlier ∉ state.deliveries calls) ∧
      (∀ results, .results groupHandle results ∉ state.deliveries calls) ∧
      ∃ group entries, (state.run calls).group? groupHandle = some group ∧
        document = bundle group hostTask entries ∧
        List.Forall₂ (fun handle entry => ∃ task,
          (state.run calls).Contributes world handle task entry) group.members entries ∧
        ∀ earlier, earlier <+: calls →
          (∀ before ∈ (state.run earlier).groups, before.handle = groupHandle →
            before.failureCode = .ok) ∧
          ∀ task ∈ (state.run earlier).tasks, task.handle ∈ group.members →
            task.unresponsive = false
  /-- Results are handed over for all members or for none, and once. -/
  results : ∀ groupHandle capacity host authorityCurrent recorded taken,
    (state.run calls).takeResults groupHandle capacity host authorityCurrent recorded = taken →
      (taken.status ≠ .ok ∧ taken.results = [] ∧ taken.state = state.run calls) ∨
      (taken.status = .ok ∧
        (∀ results, .results groupHandle results ∉ state.deliveries calls) ∧
        ∃ group, (state.run calls).group? groupHandle = some group ∧
          List.Forall₂ (fun handle result => ∃ task,
            (state.run calls).Ready authorityCurrent handle task ∧
              result = ⟨task.execution.summary, task.execution.state⟩)
            group.members taken.results)
  /-- No member is taken, cancelled, polled or released alone. -/
  direct : ∀ group ∈ (state.run calls).groups, ∀ handle ∈ group.members,
    ∀ call : Call, call.direct = some handle →
      ((state.run calls).perform call).1 ≠ .ok ∧
        ((state.run calls).perform call).2 = state.run calls

/-- The groups of a created router are disciplined after every sequence of calls. -/
theorem run_groupsDisciplined {configs : List EndpointConfig}
    {authorityAgent authorityRegistry : Nat} {router : State}
    (created : State.create configs authorityAgent authorityRegistry = .ok router)
    (calls : List Call) : router.GroupsDisciplined calls := by
  have kept := (create_kept created).run calls
  have marked := fun {group : Group} {groupHandle : Nat} =>
    @Kept.deliveries_marked router (create_kept created) calls groupHandle group
  refine ⟨?_, ?_, ?_, ?_⟩
  · intro more group known failed later isLater same
    rw [run_append] at isLater
    exact (((kept.grouped.follows known).run kept more).2 later isLater same).failureCode failed
  · intro groupHandle hostTask host world document built
    obtain ⟨group, entries, found, unbuilt, healthy, passed, isEntries, isDocument, -⟩ :=
      buildInput_some built
    obtain ⟨known, named⟩ := group?_mem found
    obtain ⟨untaken, ready⟩ := kept.ready known passed
    obtain ⟨inputs, results⟩ := marked known named
    refine ⟨?_, ?_, group, entries, found, isDocument,
      buildMembers_ok group.members ready entries isEntries, ?_⟩
    · intro earlier member
      rw [inputs earlier member] at unbuilt
      cases unbuilt
    · intro given member
      rw [results given member] at untaken
      cases untaken
    · rintro earlier ⟨more, rfl⟩
      have past := (create_kept created).run earlier
      rw [run_append] at kept known ready
      refine ⟨?_, ?_⟩
      · intro before isBefore same
        by_contra failed
        have follows := ((past.grouped.follows isBefore).run past more).2 group known
          (named.trans same.symm)
        rw [follows.failureCode failed] at healthy
        exact failed healthy
      · intro task isTask member
        obtain ⟨later, isReady⟩ := ready task.handle member
        obtain ⟨isLater, same⟩ := task?_eq_some isReady.found
        cases lost : task.unresponsive with
        | false => rfl
        | true =>
            have stays := past.unresponsive isTask lost more later isLater same
            rw [isReady.responsive] at stays
            exact stays.symm
  · intro groupHandle capacity host authorityCurrent recorded taken isTaken
    rcases kept.takeResults_all groupHandle capacity host authorityCurrent recorded with
      none | ⟨status, group, found, untaken, given⟩
    · rw [isTaken] at none
      exact .inl none
    · rw [isTaken] at status given
      obtain ⟨known, named⟩ := group?_mem found
      refine .inr ⟨status, ?_, group, found, given⟩
      intro results member
      rw [(marked known named).2 results member] at untaken
      cases untaken
  · intro group known handle member call direct
    exact kept.direct_refused known member direct

def groupConfigs : List EndpointConfig :=
  [⟨"left", 1, 1, 0, "model", "provider", 3, 7, 100, 1000, 1000, 1, 1⟩,
    ⟨"right", 2, 2, 0, "model", "provider", 3, 7, 100, 1000, 1000, 1, 1⟩]

def groupRouter : State :=
  ⟨groupConfigs.map (⟨·, false⟩), 0, 0, 1, 0, [], [], 0⟩

def groupCalls : List Call :=
  [.submit ⟨.execute, 1, 4, 10, 10, 1000, 1000, 100, "first", "run"⟩ 0 none
      ⟨some ⟨4, 1⟩, fun _ => some ⟨0, 1⟩, true, 5, .ok, .ok, "one"⟩,
    .submit ⟨.execute, 1, 4, 10, 10, 1000, 1000, 100, "second", "run"⟩ 0 none
      ⟨some ⟨4, 1⟩, fun _ => some ⟨0, 1⟩, true, 5, .ok, .ok, "two"⟩,
    .adoptGroup "pair" [0, 1] true,
    .finish 1 .ok (some ⟨"run_2", "completed", none⟩) (some ⟨none, false, none, 0, some "b"⟩),
    .finish 0 .ok (some ⟨"run_1", "completed", none⟩) (some ⟨none, false, none, 0, some "a"⟩)]

def groupWorld : BuildWorld :=
  ⟨fun _ => true, fun _ => true, fun _ => true, true, fun _ => 500, .ok⟩

theorem run_groupsDisciplined_pair :
    ((groupRouter.run groupCalls).buildInput 2 "merge" none groupWorld).1 = .ok ∧
    ((groupRouter.run groupCalls).takeResults 2 2 none (fun _ => true) .ok).results.length = 2 ∧
    groupRouter.GroupsDisciplined groupCalls := by
  have created : State.create groupConfigs 0 0 = .ok groupRouter := by rfl
  exact ⟨by decide +kernel, by decide +kernel, run_groupsDisciplined created groupCalls⟩

end State

end TurboAgent.Router
