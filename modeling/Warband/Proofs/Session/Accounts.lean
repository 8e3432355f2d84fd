import Warband.Proofs.Session.Holding
import Warband.Proofs.Session.Survey

/-!
# The accounts of a session

A mind counts what happens to it in words that wrap around. What really happened
is told by the dialogue, and the words are its counts modulo their size: the
bots that came less those that went are the bots there are, and what the ticks
reported of expiries, clusters and claims adds up to the totals.

The events are accounted for as well. An event that was recorded is active,
has expired or was overwritten, and nothing is overwritten before every slot was
used. So the active slots are never more than the events that were recorded and
did not expire, and they are as many while the log has room.
-/
namespace Warband

/-! ## Active slots -/

namespace Combat.Log

variable {l : Log} {recorded expired : Nat}

theorem length_active (l : Log) : l.active.length = l.slots.countP (·.isActive) := by
  rw [active, ← List.countP_eq_length_filter, Array.countP_toList]

/-- What an expiry counts is what it takes from the active slots. -/
theorem length_active_expire (l : Log) (now : Time) (maxAge : Float32) :
    (l.expire now maxAge).active.length + l.expiring now maxAge = l.active.length := by
  have hkept : (l.expire now maxAge).active.length =
      l.active.countP fun e => !e.expired now maxAge := by
    rw [length_active, slots_expire, Array.countP_map, ← Array.countP_toList, active,
      List.countP_filter]
    refine List.countP_congr fun e _ => ?_
    cases hold : e.expired now maxAge <;> cases hactive : e.isActive <;>
      simp [retire, hold, hactive]
  have hgone : l.expiring now maxAge = l.active.countP (·.expired now maxAge) := by
    rw [expiring, ← Array.countP_toList, active, List.countP_filter]
    exact List.countP_congr fun e _ => by rw [Bool.and_comm]
  rw [hkept, hgone, Nat.add_comm, List.length_eq_countP_add_countP (·.expired now maxAge)]
  simp

/-- A new event is active, and the event in whose place it is written is lost. -/
theorem length_active_record (h : l.head < l.slots.size) (e : Event) :
    (l.record e).active.length + (if l.slots[l.head].isActive then 1 else 0) =
      l.active.length + 1 := by
  have hslots : (l.record e).slots = l.slots.set l.head { e with isActive := true } h := by
    simp only [record, Array.setIfInBounds, h, dif_pos]
  rw [length_active, length_active, hslots, Array.countP_set]
  split
  · rename_i hactive
    have hpos : 0 < l.slots.countP (·.isActive) :=
      Array.countP_pos_iff.2 ⟨_, Array.getElem_mem h, hactive⟩
    simp
    omega
  · simp

/-- A log that was written to so many times, and of which so many events expired. -/
structure Written (l : Log) (recorded expired : Nat) : Prop where
  keeps : ∃ told, Keeps l l.capacity told ∧ told.length = recorded
  le : l.active.length + expired ≤ recorded
  /-- Nothing was overwritten. -/
  eq : recorded ≤ l.capacity → l.active.length + expired = recorded

theorem written_ofCapacity (capacity : Nat) : Written (ofCapacity capacity) 0 0 := by
  have hnone : (ofCapacity capacity).active.length = 0 := by
    simp [active, ofCapacity]
  refine ⟨⟨[], ?_, rfl⟩, by omega, fun _ => by omega⟩
  rw [capacity_ofCapacity]
  exact keeps_blank (by omega)

theorem Written.record (h : Written l recorded expired) (e : Event) :
    Written (l.record e) (recorded + 1) expired := by
  obtain ⟨told, hkeeps, rfl⟩ := h.keeps
  have hhead : l.head < l.slots.size := by
    rw [hkeeps.head, hkeeps.size]
    exact Nat.mod_lt _ hkeeps.pos
  have hcount := length_active_record hhead e
  have hle := h.le
  refine ⟨⟨_, (capacity_record l e).symm ▸ hkeeps.record e, by simp⟩, by omega, fun hroom => ?_⟩
  rw [capacity_record] at hroom
  have hblank : l.slots[l.head] = {} := by
    have hslot := hkeeps.blank told.length le_rfl hroom
    rw [← Nat.mod_eq_of_lt hroom, ← hkeeps.head] at hslot
    exact (Array.getElem?_eq_some_iff.1 hslot).2
  have heq := h.eq (by omega)
  rw [hblank, if_neg (by decide)] at hcount
  omega

theorem Written.expire (h : Written l recorded expired) (now : Time) (maxAge : Float32) :
    Written (l.expire now maxAge) recorded (expired + l.expiring now maxAge) := by
  obtain ⟨told, hkeeps, hlength⟩ := h.keeps
  have hcount := length_active_expire l now maxAge
  have hle := h.le
  refine ⟨⟨_, (capacity_expire l now maxAge).symm ▸ hkeeps.expire now maxAge, ?_⟩, by omega,
    fun hroom => ?_⟩
  · rw [List.length_map, hlength]
  · rw [capacity_expire] at hroom
    have heq := h.eq hroom
    omega

end Combat.Log

/-! ## What is accounted for -/

def Call.isEvent : Call → Bool
  | .recordEvent _ => true
  | _ => false

namespace Mind

open Combat Metrics

/-- How many calls of a dialogue were of one kind. -/
def calls (p : Call → Bool) (said : List (Call × Answer)) : Nat := said.countP fun x => p x.1

/-- What a tick reported. No other call has anything to report. -/
def report : Call × Answer → Report
  | (.tick .., .report r) => r
  | _ => {}

/-- What the ticks of a dialogue reported under one head, in all. -/
def reported (f : Report → Nat) (said : List (Call × Answer)) : Nat :=
  (said.map fun x => f (report x)).sum

/-- The counters agree with the dialogue, modulo the size of a word. -/
structure Books (m : Mind) (said : List (Call × Answer)) : Prop where
  entities : m.counters.entitiesAdded - m.counters.entitiesRemoved = .ofNat m.bots.size
  recorded : m.counters.eventsRecorded = .ofNat (calls Call.isEvent said)
  expired : m.counters.eventsExpired = .ofNat (reported Report.eventsExpired said)
  clusters : m.counters.clustersEmitted = .ofNat (reported Report.clusters said)
  claims : m.counters.claimsGranted + m.counters.claimsDenied =
    .ofNat (calls Call.isClaim said + reported Report.lootClaims said)
  ticks : m.counters.ticksRun = .ofNat (calls Call.isTick said)
  timer : m.timer.count = calls Call.isTick said

variable {β : Type} {π : Bot → β} {settings : Settings} {m m' : Mind}
  {said : List (Call × Answer)} {x : Call × Answer} {c : Call} {a : Answer}

theorem calls_cons (p : Call → Bool) (x : Call × Answer) (said : List (Call × Answer)) :
    calls p (x :: said) = calls p said + if p x.1 then 1 else 0 := List.countP_cons

theorem reported_cons (f : Report → Nat) (x : Call × Answer) (said : List (Call × Answer)) :
    reported f (x :: said) = reported f said + f (report x) := by
  rw [reported, List.map_cons, List.sum_cons, Nat.add_comm]
  rfl

theorem report_of_not_tick (h : c.isTick = false) (a : Answer) : report (c, a) = {} := by
  cases c with
  | tick => cases h
  | _ => rfl

/-! ## What a call adds -/

/-- What one call adds to the books, and what it makes of the log. -/
structure Posted (m : Mind) (x : Call × Answer) (m' : Mind) : Prop where
  entities : m'.counters.entitiesAdded - m'.counters.entitiesRemoved + .ofNat m.bots.size =
    m.counters.entitiesAdded - m.counters.entitiesRemoved + .ofNat m'.bots.size
  recorded : m'.counters.eventsRecorded =
    m.counters.eventsRecorded + .ofNat (if x.1.isEvent then 1 else 0)
  expired : m'.counters.eventsExpired =
    m.counters.eventsExpired + .ofNat (report x).eventsExpired
  clusters : m'.counters.clustersEmitted = m.counters.clustersEmitted + .ofNat (report x).clusters
  claims : m'.counters.claimsGranted + m'.counters.claimsDenied =
    m.counters.claimsGranted + m.counters.claimsDenied +
      .ofNat ((if x.1.isClaim then 1 else 0) + (report x).lootClaims)
  ticks : m'.counters.ticksRun = m.counters.ticksRun + .ofNat (if x.1.isTick then 1 else 0)
  timer : m'.timer.count = m.timer.count + if x.1.isTick then 1 else 0
  log : ∀ n k, m.log.Written n k →
    m'.log.Written (n + if x.1.isEvent then 1 else 0) (k + (report x).eventsExpired)

/-- A call that is not counted adds nothing. -/
theorem Idle.posted (h : Idle m m') (hevent : c.isEvent = false) (hclaim : c.isClaim = false)
    (htick : c.isTick = false) (a : Answer) : Posted m (c, a) m' := by
  have hsize : m'.bots.size = m.bots.size := Roster.size_congr h.live
  constructor <;>
    simp [h.counters, h.log, h.timer, hsize, hevent, hclaim, htick, report_of_not_tick htick a]

theorem posted_register {hostId : HostId} {botClass : BotClass} {id : BotId}
    (h : m.register hostId botClass = .ok (id, m')) (a : Answer) :
    Posted m (.register hostId botClass, a) m' := by
  obtain ⟨bots, hadopt, rfl⟩ := register_ok h
  have hsize : (bots.modify id fun b => { b with botClass := botClass }).size = m.bots.size + 1 :=
    (Roster.size_congr fun _ => Roster.contains_modify ..).trans (Roster.size_adopt hadopt)
  constructor
  case entities =>
    simp only [bump, Counters.add, hsize, UInt64.ofNat_add, UInt64.add_zero]
    grind
  all_goals simp [bump, Counters.add, report, Call.isEvent, Call.isClaim, Call.isTick]

theorem size_dropBot {hostId : HostId} {id : BotId} (hknown : m.bots.Known)
    (hfind : m.bots.find? hostId = some id) (h : m.dropBot id = .ok m') :
    m.bots.size = m'.bots.size + 1 := by
  obtain ⟨bots, hsep, -, -, -, hbots⟩ := dropBot_ok h
  rcases hbots with ⟨gone, hremove⟩ | ⟨hdead, -⟩
  · rw [← Roster.size_congr (contains_parted hsep), Roster.size_remove? hremove]
  · rw [contains_parted hsep, hknown.contains hfind] at hdead
    cases hdead

theorem posted_deregister {hostId : HostId} {r : Except Error BotId} (hknown : m.bots.Known)
    (h : m.deregister hostId = .ok (r, m')) (a : Answer) : Posted m (.deregister hostId, a) m' := by
  cases r with
  | error e =>
      rw [deregister_error h]
      exact (Idle.refl m).posted rfl rfl rfl a
  | ok id =>
      obtain ⟨hfind, hdrop⟩ := deregister_ok h
      have hsize := size_dropBot hknown hfind hdrop
      obtain ⟨bots, -, hrest⟩ := bind_eq_ok.1 hdrop
      cases hrest
      constructor
      case entities =>
        simp only [bump, Counters.add, hsize, UInt64.ofNat_add, UInt64.add_zero]
        grind
      all_goals simp [bump, Counters.add, report, Call.isEvent, Call.isClaim, Call.isTick]

theorem posted_recordEvent (m : Mind) (e : Event) (a : Answer) :
    Posted m (.recordEvent e, a) (m.recordEvent e) := by
  constructor
  case log => exact fun n k h => h.record e
  all_goals
    simp [recordEvent, bump, Counters.add, report, Call.isEvent, Call.isClaim, Call.isTick]

theorem posted_claim (m : Mind) (bot : BotId) (item : LootId) (a : Answer) :
    Posted m (.claim bot item, a) (m.claim bot item).2 := by
  unfold claim
  rcases m.claims.claim bot item with ⟨granted, claims⟩
  cases granted <;> constructor
  case false.claims | true.claims =>
    simp only [bump, Counters.add, report, Call.isClaim]
    grind
  all_goals simp [bump, Counters.add, report, Call.isEvent, Call.isTick]

/-- What a tick adds to the counters is what it reports, and it winds the rings. -/
theorem charges_of_tick {now : Time} {elapsed : Duration} {r : Report}
    (h : m.tick now elapsed = .ok (r, m')) :
    m'.counters = (((m.counters.add { eventsExpired := .ofNat r.eventsExpired }).add
        { clustersEmitted := .ofNat r.clusters }).add
        { claimsGranted := .ofNat r.lootClaims }).add { ticksRun := 1 } ∧
      r.eventsExpired = m.log.expiring now m.settings.combat.maxEventAge ∧
      m'.log = m.log.expire now m.settings.combat.maxEventAge ∧
      m'.timer = m.timer.record elapsed := by
  obtain ⟨⟨r₁, m₁⟩, hadvance, h⟩ := bind_eq_ok.1 h
  obtain ⟨⟨r₀, m₀⟩, hmaintain, hadvance⟩ := bind_eq_ok.1 hadvance
  obtain ⟨⟨n, bots⟩, -, hrest⟩ := bind_eq_ok.1 hmaintain
  cases hrest
  cases hadvance
  cases h
  exact ⟨rfl, rfl, rfl, rfl⟩

theorem posted_tick {now : Time} {elapsed : Duration} {r : Report}
    (h : m.tick now elapsed = .ok (r, m')) : Posted m (.tick now elapsed, .report r) m' := by
  obtain ⟨bots, hlinks, hcalm⟩ := calm_tick h
  have hsize : m'.bots.size = m.bots.size := Roster.size_congr fun id => by
    rw [hcalm.bots.contains, hlinks.kept.contains]
  obtain ⟨hcounters, hexpired, hlog, htimer⟩ := charges_of_tick h
  constructor
  case claims =>
    simp only [hcounters, Counters.add, report, Call.isClaim, UInt64.add_zero]
    grind
  case log =>
    rw [hlog]
    exact fun n k hwritten => hexpired ▸ hwritten.expire now _
  all_goals simp [hcounters, hsize, htimer, Counters.add, report, Call.isEvent, Call.isTick]

theorem posted_of_call (hknown : m.bots.Known) (h : m.call c = .ok (a, m')) :
    Posted m (c, a) m' := by
  have hidle : Idle m m' → c.isEvent = false → c.isClaim = false → c.isTick = false →
      Posted m (c, a) m' := fun hi he hc ht => hi.posted he hc ht a
  cases c with
  | register hostId botClass =>
      obtain ⟨⟨id, m₁⟩, hrun, h⟩ := bind_eq_ok.1 h
      cases h
      exact posted_register hrun _
  | deregister hostId =>
      obtain ⟨⟨r, m₁⟩, hrun, h⟩ := bind_eq_ok.1 h
      cases h
      exact posted_deregister hknown hrun _
  | recordEvent e =>
      cases h
      exact posted_recordEvent m e _
  | claim bot item =>
      cases h
      exact posted_claim m bot item _
  | tick now elapsed =>
      obtain ⟨⟨r, m₁⟩, hrun, h⟩ := bind_eq_ok.1 h
      cases h
      exact posted_tick hrun
  -- the others are not counted
  | assignBoss follower boss =>
      obtain ⟨⟨ok, m₁⟩, hrun, h⟩ := bind_eq_ok.1 h
      obtain ⟨⟨ok, bots⟩, hassign, hrun⟩ := bind_eq_ok.1 hrun
      cases hrun
      cases h
      exact hidle ⟨(Links.Edit.assign hassign).kept.contains, rfl, rfl, rfl⟩ rfl rfl rfl
  | createSquad hostId =>
      obtain ⟨⟨id, m₁⟩, hrun, h⟩ := bind_eq_ok.1 h
      obtain ⟨squads, -, rfl⟩ := createSquad_ok hrun
      cases h
      exact hidle ⟨fun _ => rfl, rfl, rfl, rfl⟩ rfl rfl rfl
  | disband squad =>
      cases h
      exact hidle ⟨(Enrollment.kept_disband m.squads m.bots squad).contains, rfl, rfl, rfl⟩
        rfl rfl rfl
  | join squad bot =>
      obtain ⟨⟨r, m₁⟩, hrun, h⟩ := bind_eq_ok.1 h
      obtain ⟨squads, bots, hjoin, rfl⟩ := join_ok hrun
      cases h
      exact hidle ⟨(Enrollment.kept_join hjoin).contains, rfl, rfl, rfl⟩ rfl rfl rfl
  | leave bot =>
      cases h
      exact hidle ⟨(Enrollment.kept_leave m.squads m.bots bot).contains, rfl, rfl, rfl⟩
        rfl rfl rfl
  | addMarker | release =>
      cases h
      exact hidle ⟨fun _ => rfl, rfl, rfl, rfl⟩ rfl rfl rfl
  | move bot | sense bot | temper bot | startVulture bot | setIndoor bot | patch bot =>
      cases h
      exact hidle (idle_modifyBot m bot _) rfl rfl rfl
  | setObjective =>
      cases h
      exact hidle (idle_setObjective ..) rfl rfl rfl
  | setAction =>
      cases h
      exact hidle (idle_setAction ..) rfl rfl rfl
  | publishScan =>
      cases h
      exact hidle (idle_publishScan ..) rfl rfl rfl

/-! ## Whole dialogues -/

theorem Dialogue.history (h : Dialogue π settings said m) :
    ∃ past, History π settings (m :: past) := by
  induction h with
  | start hm => exact ⟨[], .start hm⟩
  | call _ hcall ih =>
      obtain ⟨past, hpast⟩ := ih
      exact ⟨_, hpast.move (.call hcall)⟩
  | write id _ hf ih =>
      obtain ⟨past, hpast⟩ := ih
      exact ⟨_, hpast.move (.write id hf)⟩
  | relink _ hlinks ih =>
      obtain ⟨past, hpast⟩ := ih
      exact ⟨_, hpast.move (.relink hlinks)⟩

theorem books_fresh (settings : Settings) (g : Random.Generator) :
    Books (fresh settings g) [] where
  entities := (by decide : (0 : UInt64) - 0 = .ofNat 0)
  recorded := rfl
  expired := rfl
  clusters := rfl
  claims := (by decide : (0 : UInt64) + 0 = .ofNat (0 + 0))
  ticks := rfl
  timer := rfl

theorem Books.post (h : Books m said) (hp : Posted m x m') : Books m' (x :: said) where
  entities := by
    have hbefore := h.entities
    have hchange := hp.entities
    grind
  recorded := by rw [hp.recorded, h.recorded, calls_cons, UInt64.ofNat_add]
  expired := by rw [hp.expired, h.expired, reported_cons, UInt64.ofNat_add]
  clusters := by rw [hp.clusters, h.clusters, reported_cons, UInt64.ofNat_add]
  claims := by
    rw [hp.claims, h.claims, calls_cons, reported_cons, ← UInt64.ofNat_add]
    congr 1
    omega
  ticks := by rw [hp.ticks, h.ticks, calls_cons, UInt64.ofNat_add]
  timer := by rw [hp.timer, h.timer, calls_cons]

/-- The host's own edits of records are not counted. -/
theorem Books.edit {bots : Bots} (h : Books m said)
    (hlive : ∀ id, bots.contains id = m.bots.contains id) :
    Books { m with bots := bots } said where
  entities := by
    have hsize : bots.size = m.bots.size := Roster.size_congr hlive
    exact h.entities.trans (congrArg UInt64.ofNat hsize.symm)
  recorded := h.recorded
  expired := h.expired
  clusters := h.clusters
  claims := h.claims
  ticks := h.ticks
  timer := h.timer

theorem Dialogue.books (h : Dialogue π settings said m) : Books m said := by
  induction h with
  | start hm =>
      rw [start_ok hm]
      exact books_fresh settings _
  | call hsaid hcall ih =>
      obtain ⟨past, hpast⟩ := hsaid.history
      exact ih.post (posted_of_call hpast.known hcall)
  | write id _ _ ih => exact ih.edit fun _ => Roster.contains_modify ..
  | relink _ hlinks ih => exact ih.edit hlinks.kept.contains

theorem Dialogue.written (h : Dialogue π settings said m) :
    m.log.Written (calls Call.isEvent said) (reported Report.eventsExpired said) := by
  induction h with
  | start hm =>
      rw [start_ok hm]
      exact Log.written_ofCapacity _
  | call hsaid hcall ih =>
      obtain ⟨past, hpast⟩ := hsaid.history
      rw [calls_cons, reported_cons]
      exact (posted_of_call hpast.known hcall).log _ _ ih
  | write | relink =>
      rename_i ih
      exact ih

/-- In every session the counters are what was done and what the ticks reported.
The active slots of the log are at most the events that were recorded and did
not expire, and exactly these while no slot was used twice. -/
theorem books_of_dialogue (h : Dialogue π settings said m) :
    let active := m.log.active.length
    let recorded := calls Call.isEvent said
    let expired := reported Report.eventsExpired said
    let left := m.counters.eventsRecorded - m.counters.eventsExpired
    Books m said ∧ active + expired ≤ recorded ∧
      (recorded ≤ settings.combat.capacity → active + expired = recorded ∧ left = .ofNat active) ∧
      (recorded < 2 ^ 64 → active ≤ left.toNat) := by
  intro active recorded expired left
  have hbooks := h.books
  have hwritten := h.written
  obtain ⟨past, hpast⟩ := h.history
  have hcapacity : m.log.capacity = settings.combat.capacity := hpast.size_slots
  have hle : active + expired ≤ recorded := hwritten.le
  have hleft : left = .ofNat (recorded - expired) := by
    rw [UInt64.ofNat_sub (by omega), ← hbooks.recorded, ← hbooks.expired]
  refine ⟨hbooks, hle, fun hroom => ?_, fun hword => ?_⟩
  · have hall : active + expired = recorded := hwritten.eq (hcapacity ▸ hroom)
    refine ⟨hall, ?_⟩
    rw [hleft, ← hall, Nat.add_sub_cancel]
  · have hsmall : recorded - expired < UInt64.size := (Nat.sub_le ..).trans_lt hword
    rw [hleft, UInt64.toNat_ofNat_of_lt' hsmall]
    omega

/-- Two bots of which one goes, one item claimed twice, and three events of
which one expires. -/
theorem books_of_shots_and_claims :
    let script : List Call := [.register 7 .unknown, .register 8 .unknown, .claim ⟨0⟩ 3,
      .claim ⟨1⟩ 3, .deregister 7, .recordEvent ⟨⟨0, 0, 0⟩, -500, 9, .gunshot, false, true⟩,
      .recordEvent ⟨⟨0, 0, 0⟩, 0, 9, .gunshot, false, true⟩,
      .recordEvent ⟨⟨500, 0, 0⟩, 1, 9, .gunshot, false, true⟩, .tick 2 ⟨0⟩]
    let m := (fresh {} (.ofSeed 1)).after script
    let said := (fresh {} (.ofSeed 1)).saying script
    Dialogue (fun _ => ()) {} said m ∧ Books m said ∧
      (m.bots.size, calls Call.isEvent said, reported Report.eventsExpired said,
        reported Report.clusters said, m.log.active.length, m.counters.claimsGranted,
        m.counters.claimsDenied) = (1, 3, 1, 2, 2, 1, 1) ∧
      m.counters.eventsRecorded - m.counters.eventsExpired = .ofNat m.log.active.length ∧
      m.log.active.length ≤ (m.counters.eventsRecorded - m.counters.eventsExpired).toNat := by
  intro script m said
  have h : Dialogue (fun _ => ()) {} (said ++ []) m := (Dialogue.start rfl).after script
  rw [List.append_nil] at h
  have hrecorded : calls Call.isEvent said = 3 := by decide +kernel
  obtain ⟨hbooks, -, hexact, hbound⟩ := books_of_dialogue h
  rw [hrecorded] at hexact hbound
  exact ⟨h, hbooks, by decide +kernel, (hexact (by decide)).2, hbound (by decide)⟩

end Mind

end Warband
