import TurboAgent.Data.Utf8
import TurboAgent.Logic.Ancestry
import TurboAgent.Logic.Loop
import TurboAgent.RuntimeStore.Model

/-!
# Chains of stored checkpoints

The history above a checkpoint is read by following the parent of each record, from whatever
records a store has.  The walk gives up at a missing or malformed record and at an id that it has
seen, so it comes to an end in every store.
-/

namespace TurboAgent.RuntimeStore

open Logic (Ancestry)
open Logic.Loop (Ends rounds)
open Provider (JsonCodec)

/-- What a store answers to `turbo_agent_runtime_get_checkpoint`, out of finitely many records. -/
structure Checkpoints where
  get : String → Option Json
  records : List Json
  stored : ∀ id record, get id = some record → record ∈ records

/-- The parent of a record, `none` if the record or its parent is malformed, and `some none` if the
record is a root. -/
def parentLink (record : Json) : Option (Option String) :=
  if !record.isObject then none
  else
    match record.field "parent_checkpoint_id" with
    | none | some .null => some none
    | some (.string _) => some ((record.getString "parent_checkpoint_id").filter (· ≠ ""))
    | some _ => none

/-- The variables of `turbo_runtime_checkpoint_chain`. -/
structure Walk where
  seen : List String
  chain : List Json
  currentId : String

def Walk.from (checkpointId : String) : Walk := ⟨[], [], checkpointId⟩

section

variable (get : String → Option Json)

/-- A round of `turbo_runtime_checkpoint_chain`, which ends with the chain and the id of its
root. -/
def chainRound (walk : Walk) : Walk ⊕ Option (List Json × String) :=
  if walk.currentId ∈ walk.seen then .inr none
  else
    match get walk.currentId with
    | none => .inr none
    | some record =>
        match parentLink record with
        | none => .inr none
        | some none => .inr (some (walk.chain ++ [record], walk.currentId))
        | some (some parentId) =>
            .inl ⟨walk.currentId :: walk.seen, walk.chain ++ [record], parentId⟩

/-- A record with its parent, if both are well formed. -/
def link (id : String) : Option (Json × Option String) :=
  (get id).bind fun record => (parentLink record).map fun parent => (record, parent)

/-- Following parents leads from an id over the records of a chain to a root, and comes to no id
twice. -/
def Leads (checkpointId : String) (chain : List Json) (rootId : String) : Prop :=
  ∃ way, Ancestry (link get) Prod.snd checkpointId way ∧ (way.map Prod.fst).Nodup ∧
    chain = (way.map Prod.snd).map Prod.fst ∧ (way.map Prod.fst).getLast? = some rootId

end

/-- `turbo_runtime_checkpoint_chain`, which ends after a round for each record and one more. -/
def checkpointChain (store : Checkpoints) (checkpointId : String) :
    Option (List Json × String) :=
  (rounds (chainRound store.get) (store.records.length + 2) (.from checkpointId)).join

/-- `turbo_runtime_history_append_checkpoint_events_json_value`: the events of a record. -/
def recordEvents (record : Json) : Option (List Json) :=
  match record.field "events" with
  | some (.array events) => some events
  | _ => none

/-- `turbo_agent_runtime_load_history_events_json_value` by checkpoint id. -/
def loadHistoryEvents (store : Checkpoints) (checkpointId : String) : Option (List Json) :=
  (checkpointChain store checkpointId).bind fun found =>
    (found.1.reverse.mapM recordEvents).map List.flatten

section

variable {get : String → Option Json}

theorem link_eq_some {id : String} {record : Json} {parent : Option String} :
    link get id = some (record, parent) ↔
      get id = some record ∧ parentLink record = some parent := by
  simp only [link, Option.bind_eq_some_iff, Option.map_eq_some_iff, Prod.mk.injEq]
  constructor
  · rintro ⟨_, found, _, linked, rfl, rfl⟩
    exact ⟨found, linked⟩
  · rintro ⟨found, linked⟩
    exact ⟨record, found, parent, linked, rfl, rfl⟩

variable (get) in
theorem chainRound_cases (walk : Walk) :
    (chainRound get walk = .inr none ∧ (walk.currentId ∈ walk.seen ∨ link get walk.currentId = none)) ∨
    (walk.currentId ∉ walk.seen ∧ ∃ record parent, link get walk.currentId = some (record, parent) ∧
      chainRound get walk = match parent with
        | none => .inr (some (walk.chain ++ [record], walk.currentId))
        | some parentId => .inl ⟨walk.currentId :: walk.seen, walk.chain ++ [record], parentId⟩) := by
  unfold chainRound
  by_cases again : walk.currentId ∈ walk.seen
  · exact .inl ⟨if_pos again, .inl again⟩
  · rw [if_neg again]
    cases found : get walk.currentId with
    | none => exact .inl ⟨rfl, .inr (by rw [link, found, Option.bind_none])⟩
    | some record =>
        cases linked : parentLink record with
        | none =>
            refine .inl ⟨by simp only [linked], .inr ?_⟩
            rw [link, found, Option.bind_some, linked, Option.map_none]
        | some parent =>
            refine .inr ⟨again, record, parent, link_eq_some.mpr ⟨found, linked⟩, ?_⟩
            cases parent <;> simp only [linked]

variable {chain : List Json} {rootId : String}

theorem leads_of_ends {walk : Walk} (ends : Ends (chainRound get) walk (some (chain, rootId))) :
    ∃ way, Ancestry (link get) Prod.snd walk.currentId way ∧ (way.map Prod.fst).Nodup ∧
      (∀ id ∈ way.map Prod.fst, id ∉ walk.seen) ∧
      chain = walk.chain ++ (way.map Prod.snd).map Prod.fst ∧
      (way.map Prod.fst).getLast? = some rootId := by
  refine Ends.induct (motive := fun walk =>
    ∃ way, Ancestry (link get) Prod.snd walk.currentId way ∧ (way.map Prod.fst).Nodup ∧
      (∀ id ∈ way.map Prod.fst, id ∉ walk.seen) ∧
      chain = walk.chain ++ (way.map Prod.snd).map Prod.fst ∧
      (way.map Prod.fst).getLast? = some rootId) ?_ ?_ ends
  · intro walk last
    rcases chainRound_cases get walk with ⟨failed, -⟩ | ⟨fresh, record, parent, linked, round⟩
    · rw [failed] at last
      cases last
    · rw [round] at last
      cases parent with
      | some parentId => cases last
      | none =>
          cases last
          exact ⟨_, .root linked rfl, List.nodup_singleton _, by simpa using fresh, rfl, rfl⟩
  · rintro walk next round ⟨way, ancestry, distinct, unseen, rfl, last⟩
    rcases chainRound_cases get walk with ⟨failed, -⟩ | ⟨fresh, record, parent, linked, here⟩
    · rw [failed] at round
      cases round
    · rw [here] at round
      cases parent with
      | none => cases round
      | some parentId =>
          cases round
          have apart : walk.currentId ∉ way.map Prod.fst :=
            fun member => unseen _ member List.mem_cons_self
          refine ⟨_, .child linked rfl ancestry, List.nodup_cons.mpr ⟨apart, distinct⟩, ?_, ?_, ?_⟩
          · rw [List.map_cons, List.forall_mem_cons]
            exact ⟨fresh, fun id member seen => unseen id member (List.mem_cons_of_mem _ seen)⟩
          · simp
          · rw [List.map_cons, List.getLast?_cons, last]
            rfl

theorem ends_of_leads {way : List (String × Json × Option String)} {checkpointId : String}
    (ancestry : Ancestry (link get) Prod.snd checkpointId way) {seen : List String}
    (distinct : (way.map Prod.fst).Nodup) (unseen : ∀ id ∈ way.map Prod.fst, id ∉ seen)
    (last : (way.map Prod.fst).getLast? = some rootId) :
    Ends (chainRound get) ⟨seen, chain, checkpointId⟩
      (some (chain ++ (way.map Prod.snd).map Prod.fst, rootId)) := by
  induction ancestry generalizing seen chain with
  | @root key record found top =>
      have fresh : key ∉ seen := unseen key List.mem_cons_self
      obtain ⟨record, parent⟩ := record
      cases top
      cases last
      apply Ends.done
      rcases chainRound_cases get ⟨seen, chain, key⟩ with
        ⟨-, again | missing⟩ | ⟨-, other, parent, linked, round⟩
      · exact absurd again fresh
      · rw [found] at missing
        cases missing
      · rw [found] at linked
        cases linked
        exact round
  | @child key next record above found up rest ih =>
      have fresh : key ∉ seen := unseen key List.mem_cons_self
      obtain ⟨record, parent⟩ := record
      cases up
      rw [List.map_cons, List.nodup_cons] at distinct
      rw [List.map_cons, List.forall_mem_cons] at unseen
      have later : (above.map Prod.fst).getLast? = some rootId := by
        cases rest <;> simpa using last
      have others : ∀ id ∈ above.map Prod.fst, id ∉ key :: seen := by
        intro id member
        rw [List.mem_cons, not_or]
        exact ⟨fun same => distinct.1 (same ▸ member), unseen.2 id member⟩
      have rest : Ends (chainRound get) ⟨key :: seen, chain ++ [record], next⟩
          (some (chain ++ [record] ++ (above.map Prod.snd).map Prod.fst, rootId)) :=
        ih distinct.2 others later
      rw [List.append_assoc, List.singleton_append] at rest
      refine Ends.step ?_ rest
      rcases chainRound_cases get ⟨seen, chain, key⟩ with
        ⟨-, again | missing⟩ | ⟨-, other, parent, linked, round⟩
      · exact absurd again fresh
      · rw [found] at missing
        cases missing
      · rw [found] at linked
        cases linked
        exact round

/-- The walk ends with a chain exactly when parents lead over it to a root. -/
theorem ends_iff_leads {checkpointId : String} :
    Ends (chainRound get) (.from checkpointId) (some (chain, rootId)) ↔
      Leads get checkpointId chain rootId := by
  constructor
  · intro ends
    obtain ⟨way, ancestry, distinct, -, rfl, last⟩ := leads_of_ends ends
    exact ⟨way, ancestry, distinct, rfl, last⟩
  · rintro ⟨way, ancestry, distinct, rfl, last⟩
    exact ends_of_leads ancestry distinct (fun _ _ => List.not_mem_nil) last

end

/-- The walk ends in every store: it comes to no more ids than its first one and the parents that
records name. -/
theorem checkpointChain_ends (store : Checkpoints) (checkpointId : String) :
    Ends (chainRound store.get) (.from checkpointId) (checkpointChain store checkpointId) := by
  let pool := checkpointId :: (store.records.filterMap fun record => (parentLink record).join)
  have few : pool.length ≤ store.records.length + 1 := by
    simpa [pool] using List.length_filterMap_le _ store.records
  let inv (walk : Walk) : Prop := walk.seen.Nodup ∧ walk.seen ⊆ pool ∧ walk.currentId ∈ pool
  have starts : inv (.from checkpointId) :=
    ⟨List.nodup_nil, List.nil_subset _, List.mem_cons_self⟩
  have goOn : ∀ walk next, inv walk → chainRound store.get walk = .inl next →
      inv next ∧ next.seen.length = walk.seen.length + 1 := by
    rintro walk next ⟨distinct, within, here⟩ round
    rcases chainRound_cases store.get walk with
      ⟨failed, -⟩ | ⟨fresh, record, parent, linked, goesOn⟩
    · rw [failed] at round
      cases round
    · rw [goesOn] at round
      cases parent with
      | none => cases round
      | some parentId =>
          cases round
          obtain ⟨found, names⟩ := link_eq_some.mp linked
          have named : parentId ∈ pool := by
            apply List.mem_cons_of_mem
            exact List.mem_filterMap.mpr ⟨record, store.stored _ _ found, by rw [names]; rfl⟩
          exact ⟨⟨List.nodup_cons.mpr ⟨fresh, distinct⟩, List.cons_subset.mpr ⟨here, within⟩, named⟩,
            rfl⟩
  have bounded : ∀ walk, inv walk → walk.seen.length ≤ store.records.length + 1 := by
    rintro walk ⟨distinct, within, -⟩
    exact (List.subperm_of_subset distinct within).length_le.trans few
  obtain ⟨result, ended⟩ := Logic.Loop.rounds_of_growing goOn bounded starts
  have same : checkpointChain store checkpointId = result := by
    rw [checkpointChain]
    exact congrArg Option.join ended
  rw [same]
  exact ⟨_, ended⟩

/-- In every store and from every id the walk ends.  It succeeds exactly when parents lead to a
root, with the records on the way, and the history has their events from the root downwards. -/
theorem checkpointChain_exact (store : Checkpoints) (checkpointId : String) :
    Ends (chainRound store.get) (.from checkpointId) (checkpointChain store checkpointId) ∧
    (∀ chain rootId, checkpointChain store checkpointId = some (chain, rootId) ↔
      Leads store.get checkpointId chain rootId) ∧
    ∀ events, loadHistoryEvents store checkpointId = some events ↔
      ∃ chain rootId parts, Leads store.get checkpointId chain rootId ∧
        chain.reverse.mapM recordEvents = some parts ∧ events = parts.flatten := by
  have ends := checkpointChain_ends store checkpointId
  have exact : ∀ chain rootId, checkpointChain store checkpointId = some (chain, rootId) ↔
      Leads store.get checkpointId chain rootId := by
    intro chain rootId
    rw [← ends_iff_leads]
    constructor
    · intro found
      rwa [found] at ends
    · exact fun other => ends.unique other
  refine ⟨ends, exact, ?_⟩
  intro events
  simp only [loadHistoryEvents, Option.bind_eq_some_iff, Option.map_eq_some_iff, Prod.exists, exact]
  constructor
  · rintro ⟨chain, rootId, leads, parts, each, rfl⟩
    exact ⟨chain, rootId, parts, leads, each, rfl⟩
  · rintro ⟨chain, rootId, parts, leads, each, rfl⟩
    exact ⟨chain, rootId, leads, parts, each, rfl⟩

/-- The checkpoints of a store in memory. -/
def memoryCheckpoints (codec : JsonCodec) (stored : List Record) : Checkpoints where
  get id := (getJsonStatus codec (memoryStore codec) stored (asciiBytes "checkpoints")
    (utf8 id)).toOption
  records := stored.filterMap fun record => codec.parse record.recordJson.val
  stored := by
    intro id record answered
    simp only [getJsonStatus, memoryStore, memoryGet] at answered
    split at answered
    next => cases answered
    next text got =>
      split at answered
      next value parsed =>
        cases answered
        split at got
        next entry found =>
          cases got
          exact List.mem_filterMap.mpr ⟨entry, List.mem_of_find?_eq_some found, parsed⟩
        next => cases got
      next => cases answered

def chainRecord (parent : Json) (event : String) : Json :=
  .object [("parent_checkpoint_id", parent), ("events", .array [.string event])]

def chainRecords : List (String × Json) :=
  [("a", chainRecord .null "first"), ("b", chainRecord (.string "a") "second"),
    ("c", chainRecord (.string "c") "third")]

/-- A store with a root, a checkpoint above it, and one that is its own parent. -/
def chainStore : Checkpoints :=
  let codec := Provider.knownCodec (chainRecords.map Prod.snd)
  memoryCheckpoints codec (chainRecords.map fun entry =>
    ⟨asciiBytes "checkpoints", utf8 entry.1, codec.serialize entry.2⟩)

theorem checkpointChain_exact_sample :
    Leads chainStore.get "b" [chainRecord (.string "a") "second", chainRecord .null "first"] "a" ∧
    loadHistoryEvents chainStore "b" = some [.string "first", .string "second"] ∧
    ∀ chain rootId, ¬Leads chainStore.get "c" chain rootId := by
  have found : checkpointChain chainStore "b" = some
      ([chainRecord (.string "a") "second", chainRecord .null "first"], "a") := by decide +kernel
  have missing : checkpointChain chainStore "c" = none := by decide +kernel
  refine ⟨((checkpointChain_exact chainStore "b").2.1 _ _).mp found, by decide +kernel, ?_⟩
  intro chain rootId leads
  have other := ((checkpointChain_exact chainStore "c").2.1 chain rootId).mpr leads
  rw [missing] at other
  cases other

end TurboAgent.RuntimeStore
