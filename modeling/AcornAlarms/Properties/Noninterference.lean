import AcornAlarms.Lanes.Mirror

/-!
# Keys do not interfere

The run of a key on its own coordinator is computed from what arrives for it. Every run of
the pipeline shows the key the same decisions, jobs, confirmations and entries, under other
ids; so two runs in which the same arrives for the key differ for it by a renumbering only.
-/

namespace AcornAlarms

open Library

section

variable [Platform]

/-- What a key sees of a turn: the events about it, and its entries afterwards. -/
structure Response where
  events : List Event
  latest : Option (Status × Nat)
  confirmed : Option (Status × Nat)
deriving DecidableEq

namespace Response

/-- The response under other ids. -/
def renumber (renumbering : Nat → Nat) (response : Response) : Response where
  events := response.events.map (Event.renumber renumbering)
  latest := response.latest.map (renumberEntry renumbering)
  confirmed := response.confirmed.map (renumberEntry renumbering)

/-- The ids in a response. -/
def ids (response : Response) : List Nat :=
  response.events.flatMap Event.ids ++ (response.latest.map Prod.snd).toList ++
    (response.confirmed.map Prod.snd).toList

variable {first second : Nat → Nat} {response : Response}

theorem renumber_congr (same : ∀ id ∈ response.ids, first id = second id) :
    response.renumber first = response.renumber second := by
  obtain ⟨events, latest, confirmed⟩ := response
  simp only [ids, List.mem_append, List.mem_flatMap, Option.mem_toList] at same
  simp only [renumber, mk.injEq]
  refine ⟨List.map_congr_left fun event member => Event.renumber_congr fun id inside =>
    same id (.inl (.inl ⟨event, member, inside⟩)), ?_, ?_⟩
  · cases latest with
    | none => rfl
    | some entry => simp [renumberEntry, same entry.2 (.inl (.inr rfl))]
  · cases confirmed with
    | none => rfl
    | some entry => simp [renumberEntry, same entry.2 (.inr rfl)]

theorem renumber_renumber (response : Response) :
    (response.renumber first).renumber second =
      response.renumber fun id => second (first id) := by
  have entry : renumberEntry second ∘ renumberEntry first =
      renumberEntry fun id => second (first id) := rfl
  simp only [renumber, List.map_map, Option.map_map, entry, mk.injEq, and_self, and_true]
  exact List.map_congr_left fun event _ => event.renumber_renumber

theorem ids_renumber (response : Response) :
    (response.renumber first).ids = response.ids.map first := by
  obtain ⟨events, latest, confirmed⟩ := response
  simp only [ids, renumber, List.map_append, List.flatMap_map, Event.ids_renumber,
    List.map_flatMap]
  cases latest <;> cases confirmed <;> rfl

end Response

/-- The ids in responses. -/
def idsIn (responses : List Response) : Set Nat :=
  fun id => ∃ response ∈ responses, id ∈ response.ids

namespace Pipeline

/-- What arrives for a key in a turn. -/
def arrivals (key : Key) (self : Pipeline) (action : Action) (_ : List Event) : List Arrival :=
  (self.arrival action).toList.filter fun arrival => arrival.key = key

/-- What a key sees of a turn. A turn in which nothing arrives for the key is left out, unless
it reports something about the key or changes its entries. -/
def responses (key : Key) (self : Pipeline) (action : Action) (out : List Event) :
    List Response :=
  match self.step action with
  | none => []
  | some (next, _) =>
      let response : Response :=
        { events := out.filter (Event.about key)
          latest := next.coordinator.speculativeState.get? key
          confirmed := next.coordinator.confirmedState.get? key }
      let before : Response :=
        { events := []
          latest := self.coordinator.speculativeState.get? key
          confirmed := self.coordinator.confirmedState.get? key }
      if (self.arrivals key action out).isEmpty ∧ response = before then [] else [response]

end Pipeline

/-- A coordinator that serves one key, with what it reported. -/
structure Solo where
  desk : AlarmStateCoordinator
  past : List Event
  responses : List Response

namespace Solo

/-- The coordinator of a key with the hydrated status of the key, if there is one. -/
def start (key : Key) (hydrated : Option Status) : Solo where
  desk := .new (hydrated.elim .empty (FiniteMap.empty.insert key))
  past := []
  responses := []

/-- The coordinator handles what arrives; an outcome is that of the job it dispatched last. -/
def step (key : Key) (self : Solo) (arrival : Arrival) : Solo :=
  let handled := self.desk.receive (lastDispatched key self.past) arrival
  { desk := handled.coordinator
    past := self.past ++ handled.events
    responses := self.responses ++ [
      { events := handled.events
        latest := handled.coordinator.speculativeState.get? key
        confirmed := handled.coordinator.confirmedState.get? key }] }

/-- The coordinator after what arrived. -/
def run (key : Key) (hydrated : Option Status) (arrivals : List Arrival) : Solo :=
  arrivals.foldl (step key) (start key hydrated)

theorem run_snoc (key : Key) (hydrated : Option Status) (arrivals : List Arrival)
    (arrival : Arrival) :
    run key hydrated (arrivals ++ [arrival]) = (run key hydrated arrivals).step key arrival := by
  simp [run, List.foldl_append]

end Solo

theorem lastDispatched_mem {key : Key} {past : List Event} {job : Job}
    (last : lastDispatched key past = some job) : .dispatched job ∈ past ∧ job.key = key := by
  obtain ⟨event, member, picked⟩ := List.mem_filterMap.mp (List.mem_of_getLast? last)
  cases event with
  | dispatched other =>
      simp only [Event.dispatch?, Option.ite_none_right_eq_some, Option.some.injEq] at picked
      obtain ⟨named, rfl⟩ := picked
      exact ⟨member, named⟩
  | _ => cases picked

/-- The job last dispatched for a key is found among the events about it. -/
theorem lastDispatched_filter (key : Key) (past : List Event) :
    lastDispatched key (past.filter (Event.about key)) = lastDispatched key past := by
  rw [lastDispatched, lastDispatched, latest, latest, List.filterMap_filter]
  congr 1
  refine List.filterMap_congr fun event _ => ?_
  cases event with
  | dispatched job => by_cases named : job.key = key <;> simp [Event.dispatch?, Event.about, named]
  | _ => simp [Event.dispatch?]

theorem lastDispatched_renumber (key : Key) (renumbering : Nat → Nat) (past : List Event) :
    lastDispatched key (past.map (Event.renumber renumbering)) =
      (lastDispatched key past).map (Job.renumber renumbering) := by
  rw [lastDispatched, lastDispatched, latest, latest, List.filterMap_map, ← List.getLast?_map,
    List.map_filterMap]
  congr 1
  refine List.filterMap_congr fun event _ => ?_
  cases event with
  | dispatched job =>
      simp only [Function.comp_apply, Event.renumber, Event.dispatch?]
      by_cases named : job.key = key <;> simp [Job.renumber, named]
  | _ => rfl

theorem Issued.renumber {past : List Event} {id : Nat} {key : Key} {status : Status}
    (issued : Issued past id key status) (renumbering : Nat → Nat) :
    Issued (past.map (Event.renumber renumbering)) (renumbering id) key status := by
  rcases issued with recorded | ⟨confirmation, admitted⟩
  · exact .inl (List.mem_map_of_mem recorded)
  · exact .inr ⟨confirmation, List.mem_map_of_mem admitted⟩

theorem Issued.of_filter {past : List Event} {about : Event → Bool} {id : Nat} {key : Key}
    {status : Status} (issued : Issued (past.filter about) id key status) :
    Issued past id key status := by
  rcases issued with recorded | ⟨confirmation, admitted⟩
  · exact .inl (List.mem_of_mem_filter recorded)
  · exact .inr ⟨confirmation, List.mem_of_mem_filter admitted⟩

theorem Issued.after {out : List Event} {id : Nat} {key : Key} {status : Status}
    (issued : Issued out id key status) (past : List Event) : Issued (past ++ out) id key status := by
  rcases issued with recorded | ⟨confirmation, admitted⟩
  · exact .inl (List.mem_append_right past recorded)
  · exact .inr ⟨confirmation, List.mem_append_right past admitted⟩

/-- A run shows a key what the coordinator of the key alone reports, renumbered. -/
structure Shadows (hydratedStatuses : FiniteMap Key Status) (key : Key)
    (renumbering : Nat → Nat) (past : List Event) (responses : List Response) (lanes : Lanes)
    (solo : Solo) : Prop where
  mirror : Mirror key renumbering lanes.desk solo.desk
  reported : past.filter (Event.about key) = solo.past.map (Event.renumber renumbering)
  bounded : Bounded solo.desk.idCounter solo.past
  named : ∀ id < solo.desk.idCounter,
    ∃ status, Known hydratedStatuses past (renumbering id) key status
  responses : responses = solo.responses.map (Response.renumber renumbering)
  answered : ∀ response ∈ solo.responses, ∀ id ∈ response.ids, id < solo.desk.idCounter

/-- The statuses of the key before the first turn. -/
theorem Shadows.start (hydratedStatuses : FiniteMap Key Status) (key : Key) :
    Shadows hydratedStatuses key id [] [] (.start hydratedStatuses)
      (.start key (hydratedStatuses.get? key)) := by
  have alone : ((hydratedStatuses.get? key).elim FiniteMap.empty
      (FiniteMap.empty.insert key)).get? key = hydratedStatuses.get? key := by
    cases hydratedStatuses.get? key <;> simp
  have entries : ∀ entry : Option (Status × Nat), entry.map (renumberEntry id) = entry := by
    rintro (_ | entry) <;> rfl
  constructor
  case mirror =>
    constructor
    case reserved => rfl
    case positive => exact Nat.one_pos
    case ordered => exact strictMonoOn_id
    case below => exact fun _ less => less
    case latest => simp [Lanes.start, Solo.start, AlarmStateCoordinator.new]
    case confirmed =>
      rw [entries]
      simp only [Lanes.start, Solo.start, AlarmStateCoordinator.new, FiniteMap.get?_mapValues, alone]
    case pending => simp [Lanes.start, Solo.start, AlarmStateCoordinator.new]
    case fresh => simp [Solo.start, AlarmStateCoordinator.new]
    case latestBelow => simp [Solo.start, AlarmStateCoordinator.new]
    case confirmedBelow =>
      intro status id found
      simp only [Solo.start, AlarmStateCoordinator.new, FiniteMap.get?_mapValues,
        Option.map_eq_some_iff, Prod.mk.injEq] at found
      obtain ⟨_, _, _, rfl⟩ := found
      exact Nat.one_pos
  case reported => rfl
  case bounded => simp [Solo.start, Bounded]
  case named =>
    intro id less
    obtain rfl : id = defaultHydratedId := Nat.lt_one_iff.mp less
    exact ⟨_, .inl ⟨rfl, rfl⟩⟩
  case responses => rfl
  case answered => simp [Solo.start]

section Step

variable {hydratedStatuses : FiniteMap Key Status} {key : Key} {renumbering : Nat → Nat}
  {past out : List Event} {responses : List Response} {lanes nextLanes : Lanes} {solo : Solo}
  {pipeline next : Pipeline} {action : Action}

/-- A turn that leaves the mirror and reports nothing about the key shows it nothing. -/
theorem Shadows.silent
    (shadows : Shadows hydratedStatuses key renumbering past responses lanes solo)
    (refines : Refines pipeline lanes) (after : Refines next nextLanes)
    (fires : pipeline.step action = some (next, out))
    (nothing : pipeline.arrivals key action out = [])
    (quiet : out.filter (Event.about key) = [])
    (mirror : Mirror key renumbering nextLanes.desk solo.desk) :
    Shadows hydratedStatuses key renumbering (past ++ out)
      (responses ++ pipeline.responses key action out) nextLanes solo := by
  have unseen : pipeline.responses key action out = [] := by
    have latest : next.coordinator.speculativeState.get? key =
        pipeline.coordinator.speculativeState.get? key := by
      rw [after.desk, refines.desk, mirror.latest, shadows.mirror.latest]
    have confirmed : next.coordinator.confirmedState.get? key =
        pipeline.coordinator.confirmedState.get? key := by
      rw [after.desk, refines.desk, mirror.confirmed, shadows.mirror.confirmed]
    simp only [Pipeline.responses, fires, nothing, quiet, latest, confirmed, List.isEmpty_nil,
      and_self, if_true]
  rw [unseen, List.append_nil]
  refine ⟨mirror, ?_, shadows.bounded, fun id less => ?_, shadows.responses, shadows.answered⟩
  · rw [List.filter_append, quiet, List.append_nil, shadows.reported]
  · obtain ⟨status, known⟩ := shadows.named id less
    exact ⟨status, known.append out⟩

/-- A turn in which nothing arrives for the key shows it nothing. -/
theorem Shadows.apart (shadows : Shadows hydratedStatuses key renumbering past responses lanes solo)
    (ledger : Ledger hydratedStatuses past lanes.desk lanes.underway)
    (refines : Refines pipeline lanes) (after : Refines next nextLanes)
    (fires : pipeline.step action = some (next, out))
    (nothing : pipeline.arrivals key action out = []) :
    Shadows hydratedStatuses key renumbering (past ++ out)
      (responses ++ pipeline.responses key action out) nextLanes solo := by
  cases taken : pipeline.arrival action with
  | none =>
      obtain ⟨same, unrelated⟩ := Refines.turn_none fires taken
      refine shadows.silent refines after fires nothing (unrelated.filter key) ?_
      rw [← after.desk, same, refines.desk]
      exact shadows.mirror
  | some arrival =>
      have different : key ≠ arrival.key := by
        rintro rfl
        simp [Pipeline.arrivals, taken] at nothing
      obtain ⟨concerns, coordinator, same⟩ := refines.turn_some fires taken
      refine shadows.silent refines after fires nothing ?_ ?_
      · rw [same key, concerns.filter_other different.symm]
      · rw [← after.desk, coordinator]
        refine shadows.mirror.receive_other different fun job under => ?_
        obtain ⟨owned, known⟩ := ledger.job under
        refine ⟨owned, ?_, fun id less equal => ?_⟩
        · rw [owned, lanes.busy, ← Lanes.underway, under]
          rfl
        · obtain ⟨status, issued⟩ := shadows.named id less
          rw [equal] at issued
          exact ledger.apart known issued different

/-- The job under way is the one the key's own coordinator dispatched last. -/
theorem Shadows.own (shadows : Shadows hydratedStatuses key renumbering past responses lanes solo)
    (chronicle : lanes.Chronicle past) {job : Job} (under : lanes.underway key = some job) :
    (lastDispatched key solo.past).map (Job.renumber renumbering) = some job := by
  rw [← lastDispatched_renumber, ← shadows.reported, lastDispatched_filter]
  exact (chronicle key).last job under

/-- Both coordinators handle what arrives for the same job. -/
theorem Shadows.receive
    (shadows : Shadows hydratedStatuses key renumbering past responses lanes solo)
    (chronicle : lanes.Chronicle past) (refines : Refines pipeline lanes) {arrival : Arrival}
    (taken : pipeline.arrival action = some arrival) (named : arrival.key = key) :
    lanes.desk.receive (lanes.underway key) arrival =
      lanes.desk.receive ((lastDispatched key solo.past).map (Job.renumber renumbering))
        arrival := by
  cases arrival with
  | update status | request other userAction user confirmation now => rfl
  | outcome other committed =>
      change other = key at named
      subst named
      obtain ⟨job, under, _⟩ := refines.arrival_outcome taken
      rw [shadows.own chronicle under, under]

/-- An outcome reaches the key's own coordinator only after a dispatch. -/
theorem Shadows.busy
    (shadows : Shadows hydratedStatuses key renumbering past responses lanes solo)
    (chronicle : lanes.Chronicle past) (refines : Refines pipeline lanes) {arrival : Arrival}
    (taken : pipeline.arrival action = some arrival) (named : arrival.key = key) :
    ∀ other committed, arrival = .outcome other committed →
      ∃ job, lastDispatched key solo.past = some job ∧
        (lanes.desk.speculativeState.get? other).isSome := by
  rintro other committed rfl
  change other = key at named
  subst named
  obtain ⟨job, under, busy⟩ := refines.arrival_outcome taken
  obtain ⟨mine, last, _⟩ := Option.map_eq_some_iff.mp (shadows.own chronicle under)
  exact ⟨mine, last, busy⟩

/-- What arrives for the key is answered by the coordinator of the key alone. -/
theorem Shadows.answers
    (shadows : Shadows hydratedStatuses key renumbering past responses lanes solo)
    (ledger : Ledger hydratedStatuses past lanes.desk lanes.underway)
    (chronicle : lanes.Chronicle past)
    (refines : Refines pipeline lanes) (after : Refines next nextLanes)
    (fires : pipeline.step action = some (next, out)) {arrival : Arrival}
    (taken : pipeline.arrival action = some arrival) (named : arrival.key = key) :
    ∃ extended, Shadows hydratedStatuses key extended (past ++ out)
      (responses ++ pipeline.responses key action out) nextLanes (solo.step key arrival) := by
  obtain ⟨concerns, coordinator, reports⟩ := refines.turn_some fires taken
  rw [named] at concerns coordinator reports
  have received := shadows.receive chronicle refines taken named
  have free : lanes.desk.pendingConfirmations.get? lanes.desk.idCounter = none := by
    refine Option.eq_none_iff_forall_ne_some.mpr fun confirmation found => ?_
    obtain ⟨_, _, issued⟩ := ledger.pending_issued found
    exact Nat.lt_irrefl _ (ledger.fresh issued).2
  have owned : ∀ job, lastDispatched key solo.past = some job →
      job.key = key ∧ job.id < solo.desk.idCounter := fun job last =>
    ⟨(lastDispatched_mem last).2,
      shadows.bounded _ (lastDispatched_mem last).1 _ List.mem_cons_self⟩
  have busy := shadows.busy chronicle refines taken named
  obtain ⟨extended, kept, follows⟩ := shadows.mirror.receive free named owned busy
  rw [received] at concerns coordinator reports
  have mirror : Mirror key extended nextLanes.desk (solo.step key arrival).desk := by
    rw [← after.desk, coordinator]
    exact follows.mirror
  have seen : out.filter (Event.about key) =
      (solo.desk.receive (lastDispatched key solo.past) arrival).events.map
        (Event.renumber extended) := by
    rw [reports key, concerns.filter_self, follows.events]
  have response : pipeline.responses key action out =
      [Response.renumber extended
        { events := (solo.desk.receive (lastDispatched key solo.past) arrival).events
          latest := (solo.step key arrival).desk.speculativeState.get? key
          confirmed := (solo.step key arrival).desk.confirmedState.get? key }] := by
    have arrives : pipeline.arrivals key action out = [arrival] := by
      simp [Pipeline.arrivals, taken, named]
    simp only [Pipeline.responses, fires, arrives, List.isEmpty_cons, Bool.false_eq_true,
      false_and, if_false, Response.renumber, seen, after.desk, mirror.latest, mirror.confirmed]
  refine ⟨extended, mirror, ?_, (shadows.bounded.mono follows.grows).append follows.bounded,
    fun id less => ?_, ?_, ?_⟩
  · rw [List.filter_append, shadows.reported, seen,
      shadows.bounded.renumber_congr fun id less => (kept id less).symm, ← List.map_append]
    rfl
  · by_cases old : id < solo.desk.idCounter
    · obtain ⟨status, known⟩ := shadows.named id old
      rw [kept id old]
      exact ⟨status, known.append out⟩
    · obtain ⟨status, issued⟩ := follows.issues id (Nat.not_lt.mp old) less
      have inside := issued.renumber extended
      rw [← seen] at inside
      exact ⟨status, .inr (inside.of_filter.after past)⟩
  · rw [response, shadows.responses, Solo.step, List.map_append, List.map_singleton]
    congr 1
    exact List.map_congr_left fun earlier member => Response.renumber_congr fun id inside =>
      (kept id (shadows.answered earlier member id inside)).symm
  · intro earlier member id inside
    rcases List.mem_append.mp member with old | last
    · exact Nat.lt_of_lt_of_le (shadows.answered earlier old id inside) follows.grows
    · rw [List.mem_singleton.mp last] at inside
      simp only [Response.ids, List.mem_append, List.mem_flatMap, Option.mem_toList,
        Option.map_eq_some_iff, Prod.exists, exists_eq_right] at inside
      rcases inside with (⟨event, reported, carried⟩ | ⟨status, latest⟩) | ⟨status, confirmed⟩
      · exact follows.bounded event reported id carried
      · exact mirror.latestBelow latest
      · exact mirror.confirmedBelow confirmed

end Step

/-- Every run of the pipeline shows a key the run of its own coordinator, renumbered. -/
theorem Pipeline.shadowed {hydratedStatuses : FiniteMap Key Status}
    {admits : List Event → Pipeline → Action → Prop} {actions : List Action}
    {events : List Event} {final : Pipeline}
    (run : Pipeline.machine.Run admits (.start hydratedStatuses) actions events final) (key : Key) :
    ∃ lanes renumbering, Refines final lanes ∧
      Shadows hydratedStatuses key renumbering events
        (Pipeline.machine.observe (Pipeline.responses key) (.start hydratedStatuses) actions) lanes
        (.run key (hydratedStatuses.get? key)
          (Pipeline.machine.observe (Pipeline.arrivals key) (.start hydratedStatuses) actions)) := by
  suffices held : ∃ lanes renumbering, Refines final lanes ∧
      Ledger hydratedStatuses events lanes.desk lanes.underway ∧ lanes.Chronicle events ∧
      Shadows hydratedStatuses key renumbering events
        (Pipeline.machine.observe (Pipeline.responses key) (.start hydratedStatuses) actions) lanes
        (.run key (hydratedStatuses.get? key)
          (Pipeline.machine.observe (Pipeline.arrivals key) (.start hydratedStatuses) actions)) by
    obtain ⟨lanes, renumbering, refines, _, _, shadows⟩ := held
    exact ⟨lanes, renumbering, refines, shadows⟩
  induction run with
  | refl =>
      exact ⟨_, id, Refines.initial hydratedStatuses, Ledger.start hydratedStatuses,
        fun _ => .idle, Shadows.start hydratedStatuses key⟩
  | @snoc actions past pipeline action next out prior _ fires ih =>
      obtain ⟨lanes, renumbering, refines, ledger, chronicle, shadows⟩ := ih
      obtain ⟨nextLanes, step, after⟩ := refines.step fires
      rw [prior.observe_snoc (Pipeline.responses key) fires,
        prior.observe_snoc (Pipeline.arrivals key) fires]
      by_cases nothing : pipeline.arrivals key action out = []
      · rw [nothing, List.append_nil]
        exact ⟨nextLanes, renumbering, after, step.ledger ledger, step.chronicle chronicle,
          shadows.apart ledger refines after fires nothing⟩
      · obtain ⟨arrival, member⟩ := List.exists_mem_of_ne_nil _ nothing
        obtain ⟨inside, named⟩ := List.mem_filter.mp member
        have taken := Option.mem_toList.mp inside
        have named := of_decide_eq_true named
        obtain ⟨extended, later⟩ :=
          shadows.answers ledger chronicle refines after fires taken named
        have arrives : pipeline.arrivals key action out = [arrival] := by
          simp [Pipeline.arrivals, Option.mem_def.mp taken, named]
        rw [arrives, Solo.run_snoc]
        exact ⟨nextLanes, extended, after, step.ledger ledger, step.chronicle chronicle, later⟩

/-- In two runs in which the same arrives for a key, whatever arrives for others, the key sees
the same decisions, jobs, confirmations and entries, but for the ids, and these keep their
order. -/
theorem keys_do_not_interfere {hydratedStatuses otherHydrated : FiniteMap Key Status}
    {admits otherAdmits : List Event → Pipeline → Action → Prop}
    {actions otherActions : List Action} {events otherEvents : List Event}
    {final otherFinal : Pipeline}
    (run : Pipeline.machine.Run admits (.start hydratedStatuses) actions events final)
    (otherRun : Pipeline.machine.Run otherAdmits (.start otherHydrated) otherActions otherEvents
      otherFinal)
    (key : Key) (hydrated : hydratedStatuses.get? key = otherHydrated.get? key)
    (same : Pipeline.machine.observe (Pipeline.arrivals key) (.start hydratedStatuses) actions =
      Pipeline.machine.observe (Pipeline.arrivals key) (.start otherHydrated) otherActions) :
    ∃ renumbering : Nat → Nat,
      renumbering defaultHydratedId = defaultHydratedId ∧
      StrictMonoOn renumbering (idsIn (Pipeline.machine.observe (Pipeline.responses key)
        (.start hydratedStatuses) actions)) ∧
      (Pipeline.machine.observe (Pipeline.responses key) (.start hydratedStatuses) actions).map
          (Response.renumber renumbering) =
        Pipeline.machine.observe (Pipeline.responses key) (.start otherHydrated) otherActions := by
  obtain ⟨_, one, _, first⟩ := Pipeline.shadowed run key
  obtain ⟨_, other, _, second⟩ := Pipeline.shadowed otherRun key
  rw [← same, ← hydrated] at second
  generalize Solo.run key (hydratedStatuses.get? key) _ = solo at first second
  let back := Function.invFunOn one (Set.Iio solo.desk.idCounter)
  have returns : ∀ id < solo.desk.idCounter, back (one id) = id :=
    Set.InjOn.leftInvOn_invFunOn first.mirror.ordered.injOn
  refine ⟨fun id => other (back id), ?_, ?_, ?_⟩
  · have reserved := returns defaultHydratedId first.mirror.positive
    rw [first.mirror.reserved] at reserved
    simp only [reserved, second.mirror.reserved]
  · -- The ids the key sees come from those of its own coordinator.
    have origin : ∀ id, id ∈ idsIn (Pipeline.machine.observe (Pipeline.responses key)
        (.start hydratedStatuses) actions) → ∃ own < solo.desk.idCounter, one own = id := by
      rintro id ⟨response, member, inside⟩
      rw [first.responses] at member
      obtain ⟨own, answered, rfl⟩ := List.mem_map.mp member
      rw [Response.ids_renumber] at inside
      obtain ⟨ownId, carried, rfl⟩ := List.mem_map.mp inside
      exact ⟨ownId, first.answered own answered ownId carried, rfl⟩
    intro low lowSeen high highSeen less
    obtain ⟨ownLow, lowBelow, rfl⟩ := origin low lowSeen
    obtain ⟨ownHigh, highBelow, rfl⟩ := origin high highSeen
    have ordered := (first.mirror.ordered.lt_iff_lt lowBelow highBelow).mp less
    simp only [returns ownLow lowBelow, returns ownHigh highBelow]
    exact second.mirror.ordered lowBelow highBelow ordered
  · rw [first.responses, second.responses, List.map_map]
    refine List.map_congr_left fun response member => ?_
    rw [Function.comp_apply, Response.renumber_renumber]
    refine Response.renumber_congr fun id inside => ?_
    rw [returns id (first.answered response member id inside)]

end

section

attribute [local instance] asciiPlatform

/-- The pump alarms, and an operator bypasses it. -/
def pumpAlone : List Action :=
  [.input (.automatedUpdate (pump.report .alarmed .high)) 0] ++ Pipeline.carry ⟨0, 0⟩ ++
    Pipeline.commit ++ [.input (.userUpdate pump (.bypass none) "operator" 7) 10]

/-- The same while a bypass of the EPICS device is under way. -/
def pumpBesideBeam : List Action :=
  [.input (.userUpdate beam (.bypass none) "operator" 3) 5] ++ Pipeline.carry ⟨5, 0⟩ ++
    [.input (.automatedUpdate (pump.report .alarmed .high)) 0] ++ Pipeline.carry ⟨0, 0⟩ ++
    [.completion 1 true, .flush, .publishOutcome, .jobOutcome 0,
      .input (.userUpdate pump (.bypass none) "operator" 7) 10]

/-- The pump is served alike in both runs, though its ids differ. -/
theorem keys_do_not_interfere_pump :
    ∃ (final otherFinal : Pipeline) (events otherEvents : List Event) (renumbering : Nat → Nat),
      Pipeline.machine.Run Machine.Every (.start .empty) pumpAlone events final ∧
      Pipeline.machine.Run Machine.Every (.start .empty) pumpBesideBeam otherEvents otherFinal ∧
      renumbering defaultHydratedId = defaultHydratedId ∧
      (Pipeline.machine.observe (Pipeline.responses pump) (.start .empty) pumpAlone).map
          (Response.renumber renumbering) =
        Pipeline.machine.observe (Pipeline.responses pump) (.start .empty) pumpBesideBeam ∧
      Pipeline.machine.observe (Pipeline.responses pump) (.start .empty) pumpAlone ≠
        Pipeline.machine.observe (Pipeline.responses pump) (.start .empty) pumpBesideBeam := by
  obtain ⟨final, events, run, _⟩ :=
    Pipeline.run_of_check .empty pumpAlone (fun _ _ => true) (by decide)
  obtain ⟨otherFinal, otherEvents, otherRun, _⟩ :=
    Pipeline.run_of_check .empty pumpBesideBeam (fun _ _ => true) (by decide)
  obtain ⟨renumbering, reserved, _, served⟩ :=
    keys_do_not_interfere run otherRun pump rfl (by decide)
  exact ⟨final, otherFinal, events, otherEvents, renumbering, run.forget, otherRun.forget, reserved,
    served, by decide⟩

end

end AcornAlarms
