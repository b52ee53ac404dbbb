import MoteBench.Proofs.World.Delivery
import MoteBench.Proofs.World.InPlace

/-!
The motes of a world and the messages that name them. Motes stand in the order in which they were
added and none stands there twice; whatever is pending or was delivered comes from one of them. A
request that is refused leaves the world as it was, also when it is carried out in place.
-/
namespace MoteBench.World

open Memory

variable {w : World} {id : MoteId}

/-- The ids of all motes, in the order of enumeration. -/
def ids (w : World) : List MoteId := w.motes.map (·.id)

theorem mem_ids_iff : id ∈ w.ids ↔ (w.mote? id).isSome = true := mem_motes_docket

theorem knows_iff {m : Message} : w.knows m.source = true ↔ ∀ id, m.source = .mote id → id ∈ w.ids := by
  cases hs : m.source with
  | script => simp [knows]
  | mote id => simp [knows, mem_ids_iff]

/-- The mote that joins a world with a request, if the world takes it in. -/
def joins : Request → Response → Option MoteId
  | .addMote mote, .done => some mote.id
  | _, _ => none

/-- All motes that join a world, in the order in which they do. -/
def joinedAll (requests : List Request) (responses : List Response) : List MoteId :=
  (requests.zip responses).filterMap fun served => joins served.1 served.2

theorem addMote_eq_error_iff {mote : Mote} {cause : Refusal} :
    w.addMote mote = .error cause ↔ mote.id ∈ w.ids ∧ cause = .duplicateMote mote.id := by
  rw [mem_ids_iff, addMote]
  split
  · rename_i hknown
    exact ⟨fun h => ⟨hknown, (Except.error.inj h).symm⟩, fun h => congrArg Except.error h.2.symm⟩
  · rename_i hnew
    constructor
    · intro h
      cases h
    · exact fun h => absurd h.1 hnew

theorem schedule_eq_error_iff {m : Message} {cause : Refusal} : w.schedule m = .error cause ↔
    ∃ id, m.source = .mote id ∧ id ∉ w.ids ∧ cause = .unknownMote id := by
  cases hk : w.knows m.source with
  | true =>
    have hknown := knows_iff.mp hk
    rw [schedule_of_knows hk]
    constructor
    · intro h
      cases h
    · rintro ⟨id, hs, hunknown, -⟩
      exact absurd (hknown id hs) hunknown
  | false =>
    obtain ⟨id, hs, hrefused⟩ := schedule_of_not_knows hk
    have hunknown : id ∉ w.ids := by
      rw [hs] at hk
      rw [mem_ids_iff]
      exact ne_true_of_eq_false hk
    rw [hrefused]
    constructor
    · intro h
      exact ⟨id, hs, hunknown, (Except.error.inj h).symm⟩
    · rintro ⟨id', hs', -, rfl⟩
      rw [Source.mote.inj (hs.symm.trans hs')]

theorem respond_eq_refused_iff {answer : Except Refusal World} {cause : Refusal} :
    (w.respond answer).1 = .refused cause ↔ answer = .error cause := by
  cases answer <;> simp [respond]

/-- A refused request is forgotten. -/
theorem serve_of_refused {q : Request} {cause : Refusal} (h : (w.serve q).1 = .refused cause) :
    (w.serve q).2 = w := by
  have hrespond {answer : Except Refusal World} (h : (w.respond answer).1 = .refused cause) :
      (w.respond answer).2 = w := by
    rw [respond_eq_refused_iff.mp h]
    rfl
  cases q with
  | addMote mote => exact hrespond h
  | schedule m => exact hrespond h
  | print time id text => exact hrespond h
  | armTimeout after => exact hrespond h
  | _ => cases h

/-- A request that is refused in place has changed nothing. -/
theorem perform_eq_error {q : Request} {cause : Refusal} {w' : World}
    (h : InPlace.perform q w = .error cause w') : w' = w := by
  rw [InPlace.perform_eq] at h
  have hserved : w.serve q = (.refused cause, w') := by
    cases hs : w.serve q with
    | mk response served =>
      rw [hs] at h
      cases response with
      | refused cause' =>
        obtain ⟨rfl, rfl⟩ := EStateM.Result.error.inj h
        rfl
      | done => cases h
      | delivery d? => cases h
  have hunchanged := serve_of_refused (congrArg Prod.fst hserved)
  rwa [hserved] at hunchanged

/-- Whoever joins is new. -/
theorem not_mem_of_joins {q : Request} (h : joins q (w.serve q).1 = some id) : id ∉ w.ids := by
  cases q with
  | addMote mote =>
    intro hmem
    cases ha : w.addMote mote with
    | error cause =>
      rw [serve, ha] at h
      cases h
    | ok w' =>
      rw [serve, ha] at h
      obtain rfl := Option.some.inj h
      cases ha.symm.trans (addMote_eq_error_iff.mpr ⟨hmem, rfl⟩)
  | _ => cases h

/-- A request adds the mote that joins with it, and leaves all others in their places. -/
theorem ids_serve (w : World) (q : Request) :
    (w.serve q).2.ids = w.ids ++ (joins q (w.serve q).1).toList := by
  have hsame {w' : World} (h : w'.motes = w.motes) : w'.ids = w.ids ++ [] := by
    rw [ids, h, List.append_nil, ids]
  cases q with
  | addMote mote =>
    cases ha : w.addMote mote with
    | error cause =>
      rw [serve, ha]
      exact hsame rfl
    | ok w' =>
      rw [serve, ha, addMote_eq_ok ha]
      exact List.map_append
  | schedule m => exact hsame ((w.respond_schedule m).elim (congrArg motes) (congrArg motes))
  | print time id text =>
    exact hsame ((w.respond_schedule ⟨time, .mote id, text⟩).elim (congrArg motes) (congrArg motes))
  | armTimeout after =>
    exact hsame ((w.respond_armTimeout after).elim (congrArg motes) (congrArg motes))
  | generate delay payload => exact hsame rfl
  | next => exact hsame w.motes_next
  | broadcast mode bindings =>
    exact (ids_broadcastAll mode bindings w.motes).trans (List.append_nil w.ids).symm

theorem ids_serveAll (w : World) (requests : List Request) :
    (w.serveAll requests).2.ids = w.ids ++ joinedAll requests (w.serveAll requests).1 := by
  induction requests generalizing w with
  | nil => exact (List.append_nil w.ids).symm
  | cons q requests ih =>
    have hjoined : joinedAll (q :: requests) (w.serveAll (q :: requests)).1 =
        (joins q (w.serve q).1).toList ++
          joinedAll requests ((w.serve q).2.serveAll requests).1 := by
      rw [joinedAll, serveAll, List.zip_cons_cons, List.filterMap_cons]
      cases joins q (w.serve q).1 <;> rfl
    rw [hjoined, ← List.append_assoc, ← ids_serve]
    exact ih (w.serve q).2

theorem ids_subset_serveAll (w : World) (requests : List Request) :
    w.ids ⊆ (w.serveAll requests).2.ids := by
  rw [ids_serveAll]
  exact List.subset_append_left _ _

/-- No id is given to two motes. -/
theorem nodup_serve (h : w.ids.Nodup) (q : Request) : (w.serve q).2.ids.Nodup := by
  rw [ids_serve]
  cases hj : joins q (w.serve q).1 with
  | none => exact (List.append_nil w.ids).symm ▸ h
  | some id => exact List.nodup_append_comm.mp (List.nodup_cons.mpr ⟨not_mem_of_joins hj, h⟩)

theorem nodup_serveAll (h : w.ids.Nodup) (requests : List Request) :
    (w.serveAll requests).2.ids.Nodup := by
  induction requests generalizing w with
  | nil => exact h
  | cons q requests ih => exact ih (nodup_serve h q)

theorem ids_withMotes (seed : UInt64) (count : Nat) :
    (withMotes seed count).ids = (List.range count).map fun i => .ofNat (i + 1) :=
  List.map_map

theorem nodup_withMotes {count : Nat} (h : count < UInt32.size) (seed : UInt64) :
    (withMotes seed count).ids.Nodup := by
  rw [ids_withMotes]
  refine List.nodup_range.map_on fun i hi j hj heq => ?_
  have hi := List.mem_range.mp hi
  have hj := List.mem_range.mp hj
  have hnat := congrArg UInt32.toNat heq
  rw [UInt32.toNat_ofNat_of_lt' (by omega), UInt32.toNat_ofNat_of_lt' (by omega)] at hnat
  omega

/-- What a world accepts comes from a mote that it has. -/
theorem mem_ids_of_accepts {q : Request} {m : Message} (hm : m ∈ w.accepts q)
    (hs : m.source = .mote id) : id ∈ w.ids := by
  have hscheduled (m' : Message) (hm : m ∈ w.accepts (.schedule m')) : id ∈ w.ids := by
    rw [accepts] at hm
    split at hm
    · rename_i hk
      obtain rfl := List.mem_singleton.mp hm
      exact knows_iff.mp hk id hs
    · cases hm
  cases q with
  | schedule m' => exact hscheduled m' hm
  | print time id' text => exact hscheduled ⟨time, .mote id', text⟩ hm
  | generate delay payload =>
    obtain rfl := List.mem_singleton.mp hm
    cases hs
  | _ => cases hm

theorem mem_ids_of_acceptedAll {requests : List Request} {m : Message}
    (hm : m ∈ w.acceptedAll requests) (hs : m.source = .mote id) :
    id ∈ (w.serveAll requests).2.ids := by
  induction requests generalizing w with
  | nil => cases hm
  | cons q requests ih =>
    rcases List.mem_append.mp hm with hm | hm
    · exact w.ids_subset_serveAll (q :: requests) (mem_ids_of_accepts hm hs)
    · exact ih hm

/-- What a world refuses. To carry out a request that is refused changes nothing, although all that
was changed before the refusal would stay. -/
structure Careful (w : World) : Prop where
  addMote : ∀ mote cause, (w.serve (.addMote mote)).1 = .refused cause ↔
    mote.id ∈ w.ids ∧ cause = .duplicateMote mote.id
  schedule : ∀ m cause, (w.serve (.schedule m)).1 = .refused cause ↔
    ∃ id, m.source = .mote id ∧ id ∉ w.ids ∧ cause = .unknownMote id
  print : ∀ time id text cause, (w.serve (.print time id text)).1 = .refused cause ↔
    id ∉ w.ids ∧ cause = .unknownMote id
  inPlace : ∀ q, InPlace.perform q w = InPlace.concluded (w.serve q)
  atomic : ∀ q cause w', InPlace.perform q w = .error cause w' → w' = w

/-- The population of the world that `requests` make of a new one. -/
structure Populated (seed : UInt64) (count : UInt32) (requests : List Request) : Prop where
  distinct : ((withMotes seed count.toNat).serveAll requests).2.ids.Nodup
  inOrder : ((withMotes seed count.toNat).serveAll requests).2.ids =
    ((List.range count.toNat).map fun i => .ofNat (i + 1)) ++
      joinedAll requests ((withMotes seed count.toNat).serveAll requests).1
  /-- Nothing that was delivered or is pending comes from a mote that the world does not have. -/
  sent : ∀ m ∈ ((withMotes seed count.toNat).serveAll requests).1.filterMap Response.message? ++
      ((withMotes seed count.toNat).serveAll requests).2.pending,
    ∀ id, m.source = .mote id → id ∈ ((withMotes seed count.toNat).serveAll requests).2.ids
  careful : ((withMotes seed count.toNat).serveAll requests).2.Careful

/-- Every world refuses what it does not know or already has, and nothing comes of that. -/
theorem careful (w : World) : w.Careful := by
  constructor
  case addMote => exact fun mote cause => respond_eq_refused_iff.trans addMote_eq_error_iff
  case schedule => exact fun m cause => respond_eq_refused_iff.trans schedule_eq_error_iff
  case print =>
    intro time id text cause
    refine (respond_eq_refused_iff.trans schedule_eq_error_iff).trans ⟨?_, fun h => ⟨id, rfl, h⟩⟩
    rintro ⟨id', hs, hrefused⟩
    obtain rfl := Source.mote.inj hs
    exact hrefused
  case inPlace => exact fun q => InPlace.perform_eq q w
  case atomic => exact fun q cause w' => perform_eq_error

/-- However a world came about, its motes are told apart, and its messages come from them. -/
theorem populated (seed : UInt64) (count : UInt32) (requests : List Request) :
    Populated seed count requests := by
  have htimely := timely_withMotes seed count.toNat
  have hpending : (withMotes seed count.toNat).pending = [] := by
    simp [pending, withMotes, Agenda.toList, Agenda.Heap.items]
  have haccounted := (htimely.accounted_serveAll requests).eq_mergeSort (htimely.serveAll requests)
  rw [hpending, List.nil_append] at haccounted
  constructor
  case distinct => exact nodup_serveAll (nodup_withMotes count.toNat_lt seed) requests
  case inOrder => rw [ids_serveAll, ids_withMotes]
  case sent =>
    intro m hm id hs
    rw [haccounted, List.mem_mergeSort] at hm
    exact mem_ids_of_acceptedAll hm hs
  case careful => exact careful _

end MoteBench.World
