import MoteBench.CommandLine.Session
import MoteBench.Proofs.World.Alike

/-!
Replaying a feed from the command line. The motes that the world is given go up to the highest that
prints in the feed, so that all messages find their source. Only a mote with the number zero is never
there, since motes are counted from one.
-/
namespace MoteBench

open Memory

namespace World

variable {w : World} {seed : UInt64} {count : Nat} {id : MoteId}

theorem knows_withMotes : (withMotes seed count).knows (.mote id) = true ↔
    ∃ i < count, UInt32.ofNat (i + 1) = id := by
  have hknows : (withMotes seed count).knows (.mote id) = ((withMotes seed count).mote? id).isSome :=
    rfl
  have hids : (withMotes seed count).docket.motes =
      (List.range count).map fun i => UInt32.ofNat (i + 1) := List.map_map
  rw [hknows, ← mem_motes_docket, hids]
  simp only [List.mem_map, List.mem_range]

theorem knows_of_toNat_le (hzero : id ≠ 0) (h : id.toNat ≤ count) :
    (withMotes seed count).knows (.mote id) = true := by
  have hpos : id.toNat ≠ 0 := fun heq => hzero (UInt32.toNat_inj.mp heq)
  rw [knows_withMotes]
  refine ⟨id.toNat - 1, by omega, ?_⟩
  rw [Nat.sub_add_cancel (by omega)]
  exact UInt32.ofNat_toNat

theorem not_knows_zero (h : count < UInt32.size) :
    (withMotes seed count).knows (.mote 0) = false := by
  rw [← Bool.not_eq_true, knows_withMotes]
  rintro ⟨i, hi, heq⟩
  have hnat : (UInt32.ofNat (i + 1)).toNat = i + 1 := UInt32.toNat_ofNat_of_lt' (by omega)
  rw [heq] at hnat
  cases hnat

theorem entries_withMotes (seed : UInt64) (count : Nat) :
    (withMotes seed count).docket.entries = [] := by
  simp [docket, withMotes, Agenda.toList, Agenda.Heap.items]

/-- The first message without a source decides what is wrong. -/
theorem foldlM_schedule_of_not_knows {messages : List Message}
    (h : ∃ m ∈ messages, w.knows m.source = false) :
    ∃ id, (∃ m ∈ messages, m.source = .mote id) ∧ w.knows (.mote id) = false ∧
      messages.foldlM schedule w = .error (.unknownMote id) := by
  induction messages generalizing w with
  | nil => simp at h
  | cons m messages ih =>
    rw [List.foldlM_cons]
    cases hk : w.knows m.source with
    | false =>
      obtain ⟨id, hs, hrefused⟩ := schedule_of_not_knows hk
      rw [hs] at hk
      rw [hrefused]
      exact ⟨id, ⟨m, List.mem_cons_self, hs⟩, hk, rfl⟩
    | true =>
      have hrest : ∃ m ∈ messages, w.knows m.source = false := by
        obtain ⟨m', hm', hunknown⟩ := h
        rcases List.mem_cons.mp hm' with rfl | hm'
        · cases hk.symm.trans hunknown
        · exact ⟨m', hm', hunknown⟩
      obtain ⟨id, ⟨m', hm', hs⟩, hunknown, herror⟩ :=
        ih (w := w.put (max m.time w.now) (.message m.source m.text)) hrest
      rw [schedule_of_knows hk]
      exact ⟨id, ⟨m', List.mem_cons_of_mem _ hm', hs⟩, hunknown, herror⟩

/-- On a world without messages stand those that are scheduled, in order of time. -/
theorem Scheduled.entries_eq {messages : List Message} {w' : World} (h : Scheduled w messages w')
    (hempty : w.docket.entries = []) :
    w'.docket.entries = (messages.mergeSort (·.time ≤ ·.time)).map (·.entry) := by
  have hsorted : (messages.mergeSort (·.time ≤ ·.time)).Pairwise (·.time ≤ ·.time) :=
    StableOrder.pairwise_mergeSort messages
  refine StableOrder.eq_of_filter_eq w'.pairwise_entries (List.pairwise_map.mpr hsorted) fun t => ?_
  have hsame : (messages.mergeSort (·.time ≤ ·.time)).filter (·.time = t) =
      messages.filter (·.time = t) := StableOrder.filter_mergeSort messages t
  rw [h.entries, hempty, List.nil_append, List.filter_map, List.filter_map]
  exact congrArg (List.map (·.entry)) hsame.symm

end World

namespace Feed

theorem load_toUTF8 (text : String) : load (some text.toUTF8) = parse text := by
  have htext : String.fromUTF8? text.toUTF8 = some text := dif_pos text.isValidUTF8
  rw [load, htext]

end Feed

namespace CommandLine.Session

variable {a : Arguments} {feed : List Message} {m : Message} {id : MoteId}

theorem toNat_le_highestMote (hm : m ∈ feed) (hs : m.source = .mote id) :
    id.toNat ≤ highestMote feed := by
  induction feed with
  | nil => cases hm
  | cons first rest ih =>
    rw [highestMote]
    rcases List.mem_cons.mp hm with rfl | hm
    · rw [hs]
      exact le_max_left _ _
    · have hle := ih hm
      cases first.source with
      | mote id' => exact le_trans hle (le_max_right _ _)
      | script => exact hle

theorem highestMote_lt (feed : List Message) : highestMote feed < UInt32.size := by
  induction feed with
  | nil => decide
  | cons first rest ih =>
    rw [highestMote]
    cases first.source with
    | mote id => exact max_lt id.toNat_lt ih
    | script => exact ih

/-- The world before any message of the feed is scheduled. -/
def blank (a : Arguments) (feed : List Message) : World :=
  .withMotes a.seed (max a.motes (highestMote feed))

theorem knows_source (hm : m ∈ feed) (hzero : m.source ≠ .mote 0) :
    (blank a feed).knows m.source = true := by
  cases hs : m.source with
  | script => rfl
  | mote id =>
    refine World.knows_of_toNat_le (fun h => hzero (h ▸ hs)) ?_
    exact le_trans (toNat_le_highestMote hm hs) (le_max_right _ _)

theorem setting_of_sources (h : ∀ m ∈ feed, m.source ≠ .mote 0) :
    ∃ w, setting a feed = .ok w := by
  obtain ⟨w, hw, -⟩ := World.scheduled_of_knows (w := blank a feed)
    (fun m hm => knows_source hm (h m hm)) fun m _ => m.time.zero_le
  exact ⟨w, hw⟩

/-- A mote with the number zero is the only one that a world can lack. -/
theorem setting_of_mote_zero (hmotes : a.motes < UInt32.size)
    (h : ∃ m ∈ feed, m.source = .mote 0) : setting a feed = .error (.unknownMote 0) := by
  have hzero : (blank a feed).knows (.mote 0) = false :=
    World.not_knows_zero (max_lt hmotes (highestMote_lt feed))
  obtain ⟨m, hm, hs⟩ := h
  obtain ⟨id, ⟨m', hm', hs'⟩, hunknown, herror⟩ :=
    World.foldlM_schedule_of_not_knows ⟨m, hm, hs ▸ hzero⟩
  have hid : id = 0 := by
    by_contra hne
    have hknown := knows_source (a := a) hm' (hs' ▸ fun h => hne (Source.mote.inj h))
    rw [hs', hunknown] at hknown
    cases hknown
  rw [← hid]
  exact herror

theorem scheduled_of_setting {w : World} (h : setting a feed = .ok w) :
    World.Scheduled (blank a feed) feed w := by
  by_cases hknown : ∀ m ∈ feed, (blank a feed).knows m.source = true
  · obtain ⟨w', hw', hscheduled⟩ :=
      World.scheduled_of_knows hknown fun m _ => m.time.zero_le
    obtain rfl := Except.ok.inj (h.symm.trans hw')
    exact hscheduled
  · obtain ⟨id, -, -, herror⟩ := World.foldlM_schedule_of_not_knows (by simpa using hknown)
    cases herror.symm.trans h

/-! What comes of a session whose world is set. -/

theorem replay_of_setting {w : World} {report : Report} (h : setting a feed = .ok w)
    (hrun : ((plan a).run w (cursor a) : Outcome World World.Refusal).result = .ok report) :
    (replay a feed).1 = some report := by
  rw [replay, h]
  dsimp only
  rw [hrun]

theorem outcome_of_feed {path text : String} (hpath : a.feed = some path)
    (hfeed : Feed.parse text = .ok feed) :
    (outcome a (some text.toUTF8)).1 = (replay a feed).1 := by
  rw [outcome, hpath]
  dsimp only
  rw [Feed.load_toUTF8, hfeed]

theorem exitCode_run {filter : Filter} (hfilter : Filter.parse? a.logLevel = some filter)
    (contents : Option ByteArray) :
    (run a contents).exitCode = exitCode (outcome a contents).1 := by
  rw [run, hfilter]

theorem exitCode_of_refused {path text : String} {filter : Filter} {cause : World.Refusal}
    (hpath : a.feed = some path) (hfeed : Feed.parse text = .ok feed)
    (hfilter : Filter.parse? a.logLevel = some filter) (h : setting a feed = .error cause) :
    (run a (some text.toUTF8)).exitCode = 1 := by
  rw [exitCode_run hfilter, outcome_of_feed hpath hfeed, replay, h]
  rfl

theorem exitCode_eq_zero_iff (report : Report) :
    exitCode (some report) = 0 ↔ report.verdict.isSuccess = true := by
  rw [exitCode, Option.any_some]
  split <;> simp_all

/-- How the session of `a` replays `feed`, which the file it is pointed to holds as `text`. -/
structure Replays (a : Arguments) (text : String) (feed : List Message) : Prop where
  ready : (∀ m ∈ feed, m.source ≠ .mote 0) → ∃ w, setting a feed = .ok w
  /-- When the plan starts, the messages of the feed are pending and nothing else is. -/
  pending : ∀ w, setting a feed = .ok w →
    w = { blank a feed with agenda := w.agenda } ∧
      w.docket.entries = (feed.mergeSort (·.time ≤ ·.time)).map (·.entry)
  /-- The program fails if a mote has the number zero, before the plan starts. -/
  refused : a.motes < UInt32.size → (∃ m ∈ feed, m.source = .mote 0) →
    setting a feed = .error (.unknownMote 0) ∧
      ∀ filter, Filter.parse? a.logLevel = some filter → (run a (some text.toUTF8)).exitCode = 1
  exitCode : ∀ w report filter, setting a feed = .ok w →
    ((plan a).run w (cursor a) : Outcome World World.Refusal).result = .ok report →
      Filter.parse? a.logLevel = some filter →
        ((run a (some text.toUTF8)).exitCode = 0 ↔ report.verdict.isSuccess = true)

/-- Every feed that can be read is replayed with all its messages, unless one of them is from a mote
with the number zero. -/
theorem feed_replayed {path text : String} (hpath : a.feed = some path)
    (hfeed : Feed.parse text = .ok feed) : Replays a text feed := by
  constructor
  case ready => exact setting_of_sources
  case pending =>
    intro w hw
    have hscheduled := scheduled_of_setting hw
    exact ⟨hscheduled.frame, hscheduled.entries_eq (World.entries_withMotes _ _)⟩
  case refused =>
    intro hmotes hzero
    have herror := setting_of_mote_zero hmotes hzero
    exact ⟨herror, fun filter hfilter => exitCode_of_refused hpath hfeed hfilter herror⟩
  case exitCode =>
    intro w report filter hw hrun hfilter
    rw [exitCode_run hfilter, outcome_of_feed hpath hfeed, replay_of_setting hw hrun]
    exact exitCode_eq_zero_iff report

/-- The feed has a mote beyond the given count, and its last line comes first. -/
theorem feed_replayed_beyond_count :
    let a : Arguments :=
      { plan := .tcpFixedPort, motes := 1, maxEvents := some 9, feed := some "run.log" }
    let text := "5:7:up\n# note\n\n5:script:go\n3:2: ERROR\n"
    let feed : List Message :=
      [⟨.ofMicros 5, .mote 7, "up"⟩, ⟨.ofMicros 5, .script, "go"⟩, ⟨.ofMicros 3, .mote 2, " ERROR"⟩]
    a.feed = some "run.log" ∧ Feed.parse text = .ok feed ∧ Replays a text feed ∧
      (∃ w, setting a feed = .ok w) ∧ (run a (some text.toUTF8)).exitCode = 0 := by
  intro a text feed
  have hfeed : Feed.parse "5:7:up\n# note\n\n5:script:go\n3:2: ERROR\n" = .ok feed := rfl
  have hreplays : Replays a text feed := feed_replayed rfl hfeed
  exact ⟨rfl, hfeed, hreplays, hreplays.ready (by decide), by decide +kernel⟩

/-- A line of a mote with the number zero can be read but not replayed. -/
theorem mote_zero_not_replayed :
    let a : Arguments := { feed := some "run.log" }
    let text := "0:0:boot\n"
    Feed.parse text = .ok [⟨.zero, .mote 0, "boot"⟩] ∧
      setting a [⟨.zero, .mote 0, "boot"⟩] = .error (.unknownMote 0) ∧
      (run a (some text.toUTF8)).exitCode = 1 := by
  intro a text
  have hfeed : Feed.parse "0:0:boot\n" = .ok [⟨.zero, .mote 0, "boot"⟩] := rfl
  have herror : setting a [⟨.zero, .mote 0, "boot"⟩] = .error (.unknownMote 0) :=
    setting_of_mote_zero (by decide) ⟨_, List.mem_cons_self, rfl⟩
  have hfilter : Filter.parse? a.logLevel = some [{ limit := 3 }] := by decide +kernel
  have hpath : a.feed = some "run.log" := rfl
  exact ⟨hfeed, herror, exitCode_of_refused hpath hfeed hfilter herror⟩

end CommandLine.Session

end MoteBench
