import TurboAgent.AgentContext.Model

/-!
# What the compactions of a thread cover

The committed compactions of a thread form a chain: each one starts where the previous one
ended and was summarized from its summary.  The head in the store names the last one, and
the context and the projection of the agent are copies of it.
-/

namespace TurboAgent.AgentContext

def coveredEnd : List Compaction → Nat
  | [] => 0
  | compaction :: _ => compaction.stop

def lastSummary : List Compaction → Option Json
  | [] => none
  | compaction :: _ => some compaction.summary

def lastProjection : List Compaction → Projection
  | [] => .cleared
  | compaction :: _ => ⟨some compaction.summary, compaction.stop, true⟩

/-- The compactions, the latest first, cover a prefix of the events by contiguous ranges,
each with the previous summary as its input. -/
def Covers (events : List Json) : List Compaction → Prop
  | [] => True
  | compaction :: rest =>
      compaction.start = coveredEnd rest ∧ compaction.start < compaction.stop ∧
        buildSource (lastSummary rest) events compaction.start compaction.stop =
          some compaction.source ∧
        Covers events rest

/-- The position right after tool results or after a model event without tool calls. -/
def SegmentEnd (events : List Json) (position : Nat) : Prop :=
  ∃ event, events[position - 1]? = some event ∧ 0 < position ∧
    (kindIs event "tool_results" ∨ kindIs event "model" ∧ toolCallCount event = 0)

/-- Where the most recent segment of the events starts. -/
def recentSegment (events : List Json) : Nat :=
  previousBoundary events 0 events.length

/-! ## Boundaries -/

section Boundaries

variable {events : List Json} {start before limit position : Nat}

theorem boundaryValid_iff : boundaryValid events position = true ↔ SegmentEnd events position := by
  cases position with
  | zero => simp [boundaryValid, SegmentEnd]
  | succ last =>
      cases found : events[last]? with
      | none => simp [boundaryValid, SegmentEnd, found]
      | some event => simp [boundaryValid, SegmentEnd, found]

theorem boundaryValid_append (more : List Json) (valid : boundaryValid events position = true) :
    boundaryValid (events ++ more) position = true := by
  rw [boundaryValid_iff] at valid ⊢
  obtain ⟨event, found, rest⟩ := valid
  have inside : position - 1 < events.length := (List.getElem?_eq_some_iff.mp found).1
  exact ⟨event, (List.getElem?_append_left inside).trans found, rest⟩

theorem previousBoundary_cases (events : List Json) (start before : Nat) :
    previousBoundary events start before = start ∨
      boundaryValid events (previousBoundary events start before) = true ∧
        start < previousBoundary events start before ∧
        previousBoundary events start before < before := by
  induction before with
  | zero => exact .inl rfl
  | succ candidate ih =>
      rw [previousBoundary]
      split
      next => exact .inl rfl
      next inside =>
        split
        next valid => exact .inr ⟨valid, Nat.lt_of_not_le inside, Nat.lt_succ_self _⟩
        rcases ih with none | ⟨valid, after, below⟩
        · exact .inl none
        · exact .inr ⟨valid, after, Nat.lt_succ_of_lt below⟩

theorem le_previousBoundary (valid : boundaryValid events position = true)
    (after : start < position) (below : position < before) :
    position ≤ previousBoundary events start before := by
  induction before with
  | zero => omega
  | succ candidate ih =>
      rw [previousBoundary]
      split
      next => omega
      split
      next => omega
      next invalid =>
        apply ih
        by_contra reached
        have same : position = candidate := by omega
        exact invalid (same ▸ valid)

theorem nextBoundaryLoop_spec (rounds boundary : Nat)
    (found : nextBoundaryLoop events limit rounds boundary ≤ limit) :
    boundaryValid events (nextBoundaryLoop events limit rounds boundary) = true ∧
      boundary ≤ nextBoundaryLoop events limit rounds boundary := by
  induction rounds generalizing boundary with
  | zero =>
      rw [nextBoundaryLoop] at found
      omega
  | succ rounds ih =>
      rw [nextBoundaryLoop] at found ⊢
      split at found
      next valid =>
        rw [if_pos valid]
        exact ⟨valid, Nat.le_refl _⟩
      next invalid =>
        rw [if_neg invalid]
        obtain ⟨valid, after⟩ := ih (boundary + 1) found
        exact ⟨valid, by omega⟩

theorem nextBoundary_spec {after : Nat} (found : nextBoundary events after limit ≤ limit) :
    boundaryValid events (nextBoundary events after limit) = true ∧
      after < nextBoundary events after limit :=
  nextBoundaryLoop_spec _ _ found

theorem recentSegment_append (events more : List Json) :
    recentSegment events ≤ recentSegment (events ++ more) := by
  rw [recentSegment]
  rcases previousBoundary_cases events 0 events.length with none | ⟨valid, after, below⟩
  · rw [none]
    exact Nat.zero_le _
  · refine le_previousBoundary (boundaryValid_append more valid) after ?_
    rw [List.length_append]
    omega

theorem recentSegment_lt (some : events ≠ []) : recentSegment events < events.length := by
  have positive := List.length_pos_of_ne_nil some
  rw [recentSegment]
  rcases previousBoundary_cases events 0 events.length with none | ⟨-, -, below⟩
  · rw [none]
    exact positive
  · exact below

theorem eventRange_append {stop : Nat} {range : List Json} (more : List Json)
    (found : eventRange events start stop = some range) :
    eventRange (events ++ more) start stop = some range := by
  rw [eventRange] at found ⊢
  split at found
  next inside =>
    have wider : start ≤ stop ∧ stop ≤ (events ++ more).length := by
      rw [List.length_append]
      omega
    rw [if_pos wider, ← found, List.drop_append_of_le_length (by omega),
      List.take_append_of_le_length (by rw [List.length_drop]; omega)]
  next => cases found

theorem buildSource_append {summary : Option Json} {stop : Nat} {source : Json}
    (more : List Json) (built : buildSource summary events start stop = some source) :
    buildSource summary (events ++ more) start stop = some source := by
  rw [buildSource, Option.map_eq_some_iff] at built ⊢
  obtain ⟨range, found, same⟩ := built
  exact ⟨range, eventRange_append more found, same⟩

theorem Covers.append {compactions : List Compaction} (more : List Json)
    (covers : Covers events compactions) : Covers (events ++ more) compactions := by
  induction compactions with
  | nil => exact covers
  | cons compaction rest ih =>
      obtain ⟨starts, forward, built, before⟩ := covers
      exact ⟨starts, forward, buildSource_append more built, ih before⟩

end Boundaries

/-! ## The cut -/

section Cut

variable {estimate : Estimator} {policy : Policy} {events : List Json} {start : Nat}

theorem chooseCutLoop_le (rounds cursor cut retained : Nat) (flag : Bool) {bound result : Nat}
    (cutLe : cut ≤ bound) (cursorLe : cursor ≤ bound)
    (chosen : chooseCutLoop estimate policy events start rounds cursor cut retained flag =
      .ok result) : result ≤ bound := by
  induction rounds generalizing cursor cut retained flag with
  | zero =>
      cases chosen
      exact cutLe
  | succ rounds ih =>
      have previousLe : start < cursor → previousBoundary events start cursor ≤ bound := by
        rcases previousBoundary_cases events start cursor with same | ⟨-, -, below⟩ <;> omega
      rw [chooseCutLoop] at chosen
      split at chosen
      next =>
        cases chosen
        exact cutLe
      next inside =>
        have previousLe := previousLe (Nat.lt_of_not_le inside)
        dsimp only at chosen
        split at chosen
        next => cases chosen
        split at chosen
        next => cases chosen
        split at chosen
        next => cases chosen
        split at chosen
        next =>
          cases chosen
          exact cutLe
        split at chosen
        next =>
          cases chosen
          exact previousLe
        next => exact ih _ _ _ _ previousLe previousLe chosen

theorem chooseCutLoop_first {rounds result : Nat} (open_ : start < events.length)
    (chosen : chooseCutLoop estimate policy events start (rounds + 1) events.length events.length
      0 false = .ok result) : result ≤ previousBoundary events start events.length := by
  rw [chooseCutLoop, if_neg (Nat.not_le_of_lt open_)] at chosen
  dsimp only at chosen
  split at chosen
  next => cases chosen
  split at chosen
  next => cases chosen
  split at chosen
  next => cases chosen
  simp only [Bool.false_eq_true, false_and, if_false] at chosen
  split at chosen
  next =>
    cases chosen
    exact Nat.le_refl _
  next => exact chooseCutLoop_le _ _ _ _ _ (Nat.le_refl _) (Nat.le_refl _) chosen

theorem chooseCut_ok {cut : Nat} (chosen : chooseCut estimate policy events start = .ok cut) :
    start < cut ∧ cut ≤ recentSegment events := by
  rw [chooseCut] at chosen
  split at chosen
  next => cases chosen
  next open_ =>
    have open_ := Nat.lt_of_not_le open_
    split at chosen
    next => cases chosen
    next result loop =>
      split at chosen
      next => cases chosen
      next after =>
        cases chosen
        have after := Nat.lt_of_not_le after
        obtain ⟨rounds, length⟩ := Nat.exists_eq_succ_of_ne_zero (Nat.ne_zero_of_lt open_)
        nth_rewrite 1 [length] at loop
        have kept := chooseCutLoop_first open_ loop
        refine ⟨after, ?_⟩
        rcases previousBoundary_cases events start events.length with same | ⟨valid, _, below⟩
        · omega
        · have recent := le_previousBoundary valid
            (Nat.zero_lt_of_lt (Nat.lt_of_lt_of_le after kept)) below
          rw [recentSegment]
          omega

structure Selected.Fits (selected : Selected) (summary : Option Json) (events : List Json)
    (start desired : Nat) : Prop where
  boundary : boundaryValid events selected.cut = true
  after : start < selected.cut
  within : selected.cut ≤ desired
  built : buildSource summary events start selected.cut = some selected.source

theorem limitSourceLoop_fits {summary : Option Json} {desired : Nat} (rounds candidate : Nat)
    {selected result : Option Selected}
    (valid : candidate ≤ desired → boundaryValid events candidate = true ∧ start < candidate)
    (fits : ∀ chosen ∈ selected, chosen.Fits summary events start desired)
    (limited : limitSourceLoop estimate policy summary events start desired rounds candidate
      selected = .ok result) :
    ∀ chosen ∈ result, chosen.Fits summary events start desired := by
  induction rounds generalizing candidate selected with
  | zero =>
      cases limited
      exact fits
  | succ rounds ih =>
      rw [limitSourceLoop] at limited
      split at limited
      next =>
        cases limited
        exact fits
      next within =>
        have within := Nat.le_of_not_lt within
        obtain ⟨boundary, after⟩ := valid within
        split at limited
        next => cases limited
        next source built =>
          split at limited
          next => cases limited
          next tokens _ =>
            have taken : ∀ chosen ∈ some (Selected.mk candidate source tokens.toNat),
                chosen.Fits summary events start desired := by
              intro chosen same
              cases same
              exact ⟨boundary, after, within, built⟩
            split at limited
            next =>
              cases limited
              exact fits
            split at limited
            next =>
              cases limited
              exact taken
            refine ih _ ?_ taken limited
            intro inside
            obtain ⟨next, beyond⟩ := nextBoundary_spec inside
            exact ⟨next, Nat.lt_trans after beyond⟩

theorem limitSource_ok {summary : Option Json} {desired : Nat} {selected : Selected}
    (limited : limitSource estimate policy summary events start desired = .ok selected) :
    selected.Fits summary events start desired := by
  rw [limitSource] at limited
  split at limited
  next => cases limited
  next => cases limited
  next result loop =>
    cases limited
    refine limitSourceLoop_fits desired _ nextBoundary_spec ?_ loop _ rfl
    exact fun _ none => nomatch none

end Cut

end TurboAgent.AgentContext
