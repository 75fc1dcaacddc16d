import Lineside.Proofs.StoreRefinement

/-! A cache of scripts is a queue by the time of the last put. The clock is read once for every call and is later at
each: so of the entries that are left when room is made none is as old as the one in front, however they are
searched. What is gone by then had expired, or gave way to younger entries that fill the cache. -/

namespace Lineside

/-- What is asked of a cache. -/
inductive CacheRequest where
  | put (kind : Name) (script : Script)
  | get (kind : Name)
  | invalidate (kind : Name)
  | size

inductive CacheAnswer where
  | done
  | script (found : Option Script)
  | size (count : Nat)

/-- A call of a cache, for which the clock is read once. -/
structure CacheCall where
  request : CacheRequest
  time : Instant
  /-- Which of several oldest entries is met first, if there are several. -/
  choices : Nat → Nat

namespace CacheCall

def moment (call : CacheCall) : Moment where
  asked := call.time
  stamped := call.time
  swept := call.time
  choices := call.choices

end CacheCall

/-- Makes calls one after the other. Returns their answers and what is there in the end. -/
def serve {σ : Type} (answer : σ → CacheCall → CacheAnswer × σ) : σ → List CacheCall → List CacheAnswer × σ
  | state, [] => ([], state)
  | state, call :: rest =>
    let (first, state) := answer state call
    let (answers, state) := serve answer state rest
    (first :: answers, state)

namespace Cache

def answer (cache : Cache) (call : CacheCall) : CacheAnswer × Cache :=
  match call.request with
  | .put kind script => (.done, cache.put call.moment kind script)
  | .get kind => (.script (cache.get call.time kind), cache)
  | .invalidate kind => (.done, cache.invalidate kind)
  | .size => (.size cache.size, cache)

/-- The entries that go first when room is made. -/
def expired (cache : Cache) (now : Instant) : List CacheEntry :=
  cache.entries.filter fun entry => decide (cache.lifetime < entry.age now)

end Cache

/-- Entries in the order in which their names were put last. The one in front leaves first. -/
structure ScriptQueue where
  room : Nat
  lifetime : Int
  entries : List CacheEntry := []

namespace ScriptQueue

/-- The entries once a name has moved to the back. -/
def held (queue : ScriptQueue) (now : Instant) (kind : Name) (script : Script) : List CacheEntry :=
  queue.entries.filter (·.kind != kind) ++ [⟨kind, script, now⟩]

/-- The entries whose age is at most the lifetime. -/
def young (queue : ScriptQueue) (now : Instant) (entries : List CacheEntry) : List CacheEntry :=
  entries.filter fun entry => decide (entry.age now ≤ queue.lifetime)

/-- Moves a name to the back. If there are too many entries then, those past their lifetime leave, and as many from the
front as are still too many. -/
def put (queue : ScriptQueue) (now : Instant) (kind : Name) (script : Script) : ScriptQueue :=
  let held := queue.held now kind script
  let young := queue.young now held
  { queue with entries := if held.length ≤ queue.room then held else young.drop (young.length - queue.room) }

/-- The script of an entry whose age is at most the lifetime. -/
def get (queue : ScriptQueue) (now : Instant) (kind : Name) : Option Script :=
  ((queue.young now queue.entries).find? (·.kind == kind)).map (·.script)

def invalidate (queue : ScriptQueue) (kind : Name) : ScriptQueue :=
  { queue with entries := queue.entries.filter (·.kind != kind) }

def answer (queue : ScriptQueue) (call : CacheCall) : CacheAnswer × ScriptQueue :=
  match call.request with
  | .put kind script => (.done, queue.put call.time kind script)
  | .get kind => (.script (queue.get call.time kind), queue)
  | .invalidate kind => (.done, queue.invalidate kind)
  | .size => (.size queue.entries.length, queue)

variable {queue : ScriptQueue} {now : Instant} {kind : Name} {script : Script}

theorem young_sublist (entries : List CacheEntry) : (queue.young now entries).Sublist entries := List.filter_sublist

theorem put_sublist : (queue.put now kind script).entries.Sublist (queue.held now kind script) := by
  rw [put]
  by_cases fits : (queue.held now kind script).length ≤ queue.room
  · simp [fits]
  · simpa [fits] using (List.drop_sublist _ _).trans (young_sublist _)

theorem put_fits : (queue.put now kind script).entries.length ≤ queue.room := by
  rw [put]
  by_cases fits : (queue.held now kind script).length ≤ queue.room
  · simp [fits]
  · simp [fits]
    omega

/-- However many entries have to leave, the last one stays. -/
theorem mem_put_self (room : 0 < queue.room) (lasts : 0 ≤ queue.lifetime) :
    ⟨kind, script, now⟩ ∈ (queue.put now kind script).entries := by
  rw [put]
  by_cases fits : (queue.held now kind script).length ≤ queue.room
  · rw [if_pos fits, held]
    exact List.mem_append_right _ List.mem_cons_self
  · have last : queue.young now (queue.held now kind script) =
        queue.young now (queue.entries.filter (·.kind != kind)) ++ [⟨kind, script, now⟩] := by
      simp [young, held, lasts, CacheEntry.age]
    simp only [fits, if_false, last, List.length_append, List.length_singleton]
    rw [List.drop_append_of_le_length (by omega)]
    simp

end ScriptQueue

/-- Entries in the order of their times, each under a name of its own. -/
structure Ranked (entries : List CacheEntry) : Prop where
  rising : entries.Pairwise (·.time < ·.time)
  apart : entries.Pairwise (·.kind ≠ ·.kind)

theorem Ranked.sublist {fewer entries : List CacheEntry} (ranked : Ranked entries) (sublist : fewer.Sublist entries) :
    Ranked fewer :=
  ⟨ranked.rising.sublist sublist, ranked.apart.sublist sublist⟩

/-- An entry is found under its name. -/
theorem Ranked.find?_kind {entries : List CacheEntry} {entry : CacheEntry} (ranked : Ranked entries)
    (member : entry ∈ entries) : entries.find? (·.kind == entry.kind) = some entry := by
  induction entries with
  | nil => cases member
  | cons first rest ih =>
    obtain ⟨others, _⟩ := List.pairwise_cons.mp ranked.apart
    rcases List.mem_cons.mp member with rfl | later
    · exact List.find?_cons_of_pos (beq_self_eq_true _)
    · rw [List.find?_cons_of_neg (by simpa using others entry later)]
      exact ih (ranked.sublist (List.sublist_cons_self first rest)) later

/-- What leaves has expired, or gives way to younger entries that need all the room. -/
theorem ScriptQueue.put_gone {queue : ScriptQueue} {now : Instant} {kind : Name} {script : Script} {entry : CacheEntry}
    (ranked : Ranked (queue.held now kind script)) (held : entry ∈ queue.held now kind script)
    (gone : entry ∉ (queue.put now kind script).entries) :
    queue.lifetime < entry.age now ∨ (queue.put now kind script).entries.length = queue.room ∧
      ∀ kept ∈ (queue.put now kind script).entries, entry.time < kept.time := by
  rw [put] at gone ⊢
  by_cases fits : (queue.held now kind script).length ≤ queue.room
  · rw [if_pos fits] at gone
    exact absurd held gone
  · simp only [if_neg fits] at gone ⊢
    by_cases old : queue.lifetime < entry.age now
    · exact .inl old
    · have young : entry ∈ queue.young now (queue.held now kind script) :=
        List.mem_filter.mpr ⟨held, decide_eq_true (Int.not_lt.mp old)⟩
      have rising : (queue.young now (queue.held now kind script)).Pairwise (·.time < ·.time) :=
        (ranked.sublist (young_sublist _)).rising
      generalize queue.young now (queue.held now kind script) = all at young gone rising
      rw [← List.take_append_drop (all.length - queue.room) all] at young rising
      have front := (List.mem_append.mp young).resolve_right gone
      have many := List.length_pos_of_mem front
      rw [List.length_take] at many
      refine .inr ⟨?_, fun kept member => (List.pairwise_append.mp rising).2.2 entry front kept member⟩
      rw [List.length_drop]
      omega

namespace Cache

variable {cache : Cache} {entry : CacheEntry} {entries rest : List CacheEntry} {kind : Name} {script : Script}
  {now : Instant}

/-- What a cache is as a queue. -/
def queue (cache : Cache) : ScriptQueue := ⟨cache.capacity, cache.lifetime, cache.entries⟩

section Evict

theorem oldest_cons (rising : (entry :: rest).Pairwise (·.time < ·.time)) : oldest (entry :: rest) = [entry] := by
  obtain ⟨first, _⟩ := List.pairwise_cons.mp rising
  have front : ((entry :: rest).all fun other => decide (entry.time ≤ other.time)) = true := by
    rw [List.all_eq_true]
    intro other member
    rcases List.mem_cons.mp member with rfl | later
    · simp
    · exact decide_eq_true (Fin.le_of_lt (first other later))
  have others : rest.filter (fun next => (entry :: rest).all fun other => decide (next.time ≤ other.time)) = [] := by
    rw [List.filter_eq_nil_iff]
    intro next member oldest
    have before := of_decide_eq_true (List.all_eq_true.mp oldest entry List.mem_cons_self)
    exact Fin.not_lt.mpr before (first next member)
  rw [oldest, List.filter_cons, if_pos front, others]

/-- Whichever of the oldest entries is chosen, the one in front goes. -/
theorem dropOldest_eq_tail (ranked : Ranked entries) (choice : Nat) : dropOldest choice entries = entries.tail := by
  cases entries with
  | nil => rfl
  | cons entry rest =>
    have others : ∀ other ∈ rest, (other.kind != entry.kind) = true := by
      intro other member
      simpa using Ne.symm ((List.pairwise_cons.mp ranked.apart).1 other member)
    simp [dropOldest, oldest_cons ranked.rising, Nat.mod_one, List.filter_eq_self.mpr others]

theorem dropMany_eq_drop (ranked : Ranked entries) (choices : Nat → Nat) (count : Nat) :
    dropMany choices count entries = entries.drop count := by
  induction count generalizing entries with
  | zero => rfl
  | succ count ih =>
    rw [dropMany, dropOldest_eq_tail ranked, ih (ranked.sublist entries.tail_sublist), List.drop_tail]

/-- The two passes of an eviction leave what leaving the queue from the front does. -/
theorem put_queue {moment : Moment} (ranked : Ranked (cache.queue.held now kind script))
    (stamped : moment.stamped = now) (swept : moment.swept = now) :
    (cache.put moment kind script).queue = cache.queue.put now kind script := by
  have held : (cache.invalidate kind).entries ++ [⟨kind, script, moment.stamped⟩] =
      cache.queue.held now kind script := by
    rw [stamped]
    rfl
  have young : (cache.queue.held now kind script).filter (fun entry => decide (now.val - cache.lifetime ≤ entry.time.val)) =
      cache.queue.young now (cache.queue.held now kind script) := by
    rw [ScriptQueue.young]
    congr 1
    funext entry
    have same : now.val - cache.lifetime ≤ entry.time.val ↔ entry.age now ≤ cache.lifetime := by
      unfold CacheEntry.age
      omega
    exact decide_eq_decide.mpr same
  have room : cache.queue.room = cache.capacity := rfl
  rw [put, held, swept, evict, ScriptQueue.put, room]
  by_cases fits : (cache.queue.held now kind script).length ≤ cache.capacity
  · simp only [if_pos fits]
    rfl
  · simp only [if_neg fits, young, dropMany_eq_drop (ranked.sublist (ScriptQueue.young_sublist _))]
    rfl

end Evict

theorem answer_capacity (call : CacheCall) : (cache.answer call).2.capacity = cache.capacity := by
  unfold answer
  split
  · rw [put, evict]
    split <;> rfl
  all_goals rfl

/-- What holds of a cache in front of calls that are still to come. -/
structure Awaits (cache : Cache) (calls : List CacheCall) : Prop where
  room : 0 < cache.capacity
  lasts : 0 < cache.lifetime
  ranked : Ranked cache.entries
  fits : cache.size ≤ cache.capacity
  since : ∀ entry ∈ cache.entries, ∀ call ∈ calls, entry.time < call.time
  ticking : calls.Pairwise fun earlier later => earlier.time < later.time

namespace Awaits

variable {call : CacheCall} {calls : List CacheCall}

/-- A name has one entry, so it does not matter whether its age is looked at before it is found or after. -/
theorem get_eq (awaits : cache.Awaits (call :: calls)) (kind : Name) :
    cache.get call.time kind = cache.queue.get call.time kind := by
  rw [get, ScriptQueue.get]
  cases found : cache.entries.find? (·.kind == kind) with
  | none =>
    have none : (cache.queue.young call.time cache.entries).find? (·.kind == kind) = none := by
      rw [List.find?_eq_none] at found ⊢
      intro entry young
      exact found entry (List.mem_filter.mp young).1
    exact (congrArg (Option.map (·.script)) none).symm
  | some entry =>
    have member := List.mem_of_find?_eq_some found
    obtain rfl : entry.kind = kind := by simpa using List.find?_some found
    rw [Option.bind_some]
    by_cases old : cache.lifetime < entry.age call.time
    · have none : (cache.queue.young call.time cache.entries).find? (·.kind == entry.kind) = none := by
        rw [List.find?_eq_none]
        intro other young same
        obtain ⟨inside, early⟩ := List.mem_filter.mp young
        have named := awaits.ranked.find?_kind inside
        rw [eq_of_beq same, found, Option.some.injEq] at named
        rw [← named, decide_eq_true_eq] at early
        exact Int.not_lt.mpr early old
      rw [if_pos old]
      exact (congrArg (Option.map (·.script)) none).symm
    · have young : entry ∈ cache.queue.young call.time cache.entries :=
        List.mem_filter.mpr ⟨member, decide_eq_true (Int.not_lt.mp old)⟩
      have here := (awaits.ranked.sublist (ScriptQueue.young_sublist _)).find?_kind young
      rw [if_neg old]
      exact (congrArg (Option.map (·.script)) here).symm

theorem held (awaits : cache.Awaits (call :: calls)) : Ranked (cache.queue.held call.time kind script) where
  rising := by
    refine List.pairwise_append.mpr
      ⟨awaits.ranked.rising.sublist List.filter_sublist, List.pairwise_singleton _ _, fun entry member added new => ?_⟩
    rw [List.mem_singleton.mp new]
    exact awaits.since entry (mem_invalidate.mp member).1 call List.mem_cons_self
  apart := by
    refine List.pairwise_append.mpr
      ⟨awaits.ranked.apart.sublist List.filter_sublist, List.pairwise_singleton _ _, fun entry member added new => ?_⟩
    rw [List.mem_singleton.mp new]
    exact (mem_invalidate.mp member).2

/-- A call that adds no entries leaves the cache ready for the next. -/
theorem keeps (awaits : cache.Awaits (call :: calls)) {entries : List CacheEntry}
    (sublist : entries.Sublist cache.entries) : Awaits { cache with entries } calls where
  room := awaits.room
  lasts := awaits.lasts
  ranked := awaits.ranked.sublist sublist
  fits := Nat.le_trans sublist.length_le awaits.fits
  since := fun entry member next later =>
    awaits.since entry (sublist.subset member) next (List.mem_cons_of_mem _ later)
  ticking := (List.pairwise_cons.mp awaits.ticking).2

theorem puts (awaits : cache.Awaits (call :: calls)) :
    (cache.put call.moment kind script).queue = cache.queue.put call.time kind script ∧
      (cache.put call.moment kind script).Awaits calls := by
  have same : (cache.put call.moment kind script).queue = cache.queue.put call.time kind script :=
    put_queue awaits.held rfl rfl
  have capacity : (cache.put call.moment kind script).capacity = cache.capacity := congrArg ScriptQueue.room same
  have lifetime : (cache.put call.moment kind script).lifetime = cache.lifetime := congrArg ScriptQueue.lifetime same
  have entries : (cache.put call.moment kind script).entries = (cache.queue.put call.time kind script).entries :=
    congrArg ScriptQueue.entries same
  obtain ⟨next, ticking⟩ := List.pairwise_cons.mp awaits.ticking
  refine ⟨same, capacity ▸ awaits.room, lifetime ▸ awaits.lasts, ?_, ?_, ?_, ticking⟩
  · exact entries ▸ awaits.held.sublist ScriptQueue.put_sublist
  · rw [size, capacity, entries]
    exact ScriptQueue.put_fits
  · intro entry member later follows
    rcases mem_put member with kept | rfl
    · exact awaits.since entry kept later (List.mem_cons_of_mem _ follows)
    · exact next later follows

/-- One call is answered as the queue answers it, and what it leaves is what it leaves of the queue. -/
theorem step (awaits : cache.Awaits (call :: calls)) :
    (cache.answer call).1 = (cache.queue.answer call).1 ∧
      (cache.answer call).2.queue = (cache.queue.answer call).2 ∧ (cache.answer call).2.Awaits calls := by
  unfold answer ScriptQueue.answer
  cases call.request with
  | put kind script => exact ⟨rfl, awaits.puts⟩
  | get kind => exact ⟨congrArg CacheAnswer.script (awaits.get_eq kind), rfl, awaits.keeps (List.Sublist.refl _)⟩
  | invalidate kind => exact ⟨rfl, rfl, awaits.keeps List.filter_sublist⟩
  | size => exact ⟨rfl, rfl, awaits.keeps (List.Sublist.refl _)⟩

theorem serve_eq (awaits : cache.Awaits calls) :
    (serve answer cache calls).1 = (serve ScriptQueue.answer cache.queue calls).1 := by
  induction calls generalizing cache with
  | nil => rfl
  | cons call calls ih =>
    obtain ⟨same, left, next⟩ := awaits.step
    simp only [serve]
    rw [ih next, same, left]

/-- What holds at the start of a row of calls holds anywhere in it. -/
theorem after {front back : List CacheCall} (awaits : cache.Awaits (front ++ back)) :
    (serve answer cache front).2.Awaits back ∧ (serve answer cache front).2.capacity = cache.capacity := by
  induction front generalizing cache with
  | nil => exact ⟨awaits, rfl⟩
  | cons call front ih =>
    obtain ⟨later, same⟩ := ih awaits.step.2.2
    exact ⟨later, same.trans (answer_capacity call)⟩

/-- What goes as expired could not have been read any more. -/
theorem get_expired (awaits : cache.Awaits (call :: calls)) (gone : entry ∈ cache.expired call.time) :
    cache.get call.time entry.kind = none := by
  obtain ⟨member, old⟩ := List.mem_filter.mp gone
  rw [get, awaits.ranked.find?_kind member, Option.bind_some, if_pos (of_decide_eq_true old)]

/-- What a put does to the cache: the new entry stays, and another one goes because it has expired or because younger
ones need all the room. -/
theorem put_answer (awaits : cache.Awaits (call :: calls)) (put : call.request = .put kind script) :
    ⟨kind, script, call.time⟩ ∈ (cache.answer call).2.entries ∧
      ∀ entry ∈ cache.entries, entry.kind ≠ kind → entry ∉ (cache.answer call).2.entries →
        entry ∈ cache.expired call.time ∨ (cache.answer call).2.size = cache.capacity ∧
          ∀ kept ∈ (cache.answer call).2.entries, entry.time < kept.time := by
  have after : (cache.answer call).2.entries = (cache.queue.put call.time kind script).entries := by
    rw [answer, put]
    exact congrArg ScriptQueue.entries awaits.puts.1
  rw [size, after]
  refine ⟨ScriptQueue.mem_put_self awaits.room (Int.le_of_lt awaits.lasts), fun entry member other gone => ?_⟩
  have held : entry ∈ cache.queue.held call.time kind script :=
    List.mem_append_left _ (mem_invalidate.mpr ⟨member, other⟩)
  rcases ScriptQueue.put_gone awaits.held held gone with old | full
  · exact .inl (List.mem_filter.mpr ⟨member, decide_eq_true old⟩)
  · exact .inr full

end Awaits

theorem awaits_new {size : Int64} {lifetime : Duration} (room : 1 ≤ size) (lasts : 0 < lifetime.nanoseconds)
    {calls : List CacheCall}
    (ticking : calls.Pairwise fun earlier later => earlier.time < later.time) :
    (new size lifetime).queue = ⟨size.toInt.toNat, lifetime.nanoseconds.toInt, []⟩ ∧
      (new size lifetime).Awaits calls := by
  have positive : 0 < size := by
    rw [Int64.le_iff_toInt_le, Int64.toInt_one] at room
    rw [Int64.lt_iff_toInt_lt, Int64.toInt_zero]
    omega
  have queue : (new size lifetime).queue = ⟨size.toInt.toNat, lifetime.nanoseconds.toInt, []⟩ := by
    simp [new, Cache.queue, positive, lasts]
  have capacity : (new size lifetime).capacity = size.toInt.toNat := congrArg ScriptQueue.room queue
  have kept : (new size lifetime).lifetime = lifetime.nanoseconds.toInt := congrArg ScriptQueue.lifetime queue
  have none : (new size lifetime).entries = [] := rfl
  rw [Int64.lt_iff_toInt_lt, Int64.toInt_zero] at positive lasts
  refine ⟨queue, ?_, ?_, ?_, ?_, ?_, ticking⟩
  · omega
  · omega
  · exact ⟨List.Pairwise.nil, List.Pairwise.nil⟩
  · exact Nat.zero_le _
  · simp [none]

/-- A cache of any size and lifetime is a queue of entries, as long as the clock is later at every call. After each call
there are no more entries than there may be, and a put keeps the entry that it adds. What it drops had expired, and
could not be read any more at that instant, or is older than all that is left in a full cache. -/
theorem serve_queue (size : Int64) (lifetime : Duration) (room : 1 ≤ size) (lasts : 0 < lifetime.nanoseconds)
    (calls : List CacheCall) (ticking : calls.Pairwise fun earlier later => earlier.time < later.time) :
    (serve answer (new size lifetime) calls).1 =
        (serve ScriptQueue.answer ⟨size.toInt.toNat, lifetime.nanoseconds.toInt, []⟩ calls).1 ∧
      ∀ front call back, calls = front ++ call :: back →
        let before := (serve answer (new size lifetime) front).2
        let after := (before.answer call).2
        after.size ≤ size.toInt.toNat ∧
          ∀ kind script, call.request = .put kind script →
            ⟨kind, script, call.time⟩ ∈ after.entries ∧
            (∀ entry ∈ before.entries, entry.kind ≠ kind → entry ∉ after.entries →
              entry ∈ before.expired call.time ∨
                after.size = size.toInt.toNat ∧ ∀ kept ∈ after.entries, entry.time < kept.time) ∧
            ∀ entry ∈ before.expired call.time, before.get call.time entry.kind = none := by
  obtain ⟨queue, awaits⟩ := awaits_new room lasts ticking
  refine ⟨queue ▸ awaits.serve_eq, ?_⟩
  rintro front call back rfl
  obtain ⟨here, capacity⟩ := awaits.after
  have same : (new size lifetime).capacity = size.toInt.toNat := congrArg ScriptQueue.room queue
  rw [same] at capacity
  refine ⟨?_, fun kind script put => ?_⟩
  · have fits := here.step.2.2.fits
    rwa [answer_capacity, capacity] at fits
  · obtain ⟨stays, gone⟩ := here.put_answer put
    rw [capacity] at gone
    exact ⟨stays, gone, fun entry => here.get_expired⟩

private def bare (name : Name) : Script := { name, nodes := [] }

/-- Three names in a cache for two, read to the end of their lifetime and beyond. -/
private def shift : List CacheCall := [
  ⟨.put "exit" (bare "exit"), 0, fun _ => 0⟩, ⟨.put "entry" (bare "entry"), 1, fun _ => 0⟩,
  ⟨.put "exit" (bare "exit"), 2, fun _ => 0⟩, ⟨.put "shunt" (bare "shunt"), 3, fun _ => 5⟩,
  ⟨.get "entry", 4, fun _ => 0⟩, ⟨.get "exit", 12, fun _ => 0⟩, ⟨.get "exit", 13, fun _ => 0⟩,
  ⟨.put "entry" (bare "entry"), 14, fun _ => 0⟩, ⟨.size, 15, fun _ => 0⟩]

theorem serve_queue_shift :
    1 ≤ (2 : Int64) ∧ 0 < (10 : Int64) ∧ (shift.Pairwise fun earlier later => earlier.time < later.time) ∧
      (serve answer (new 2 ⟨10⟩) shift).1 = [.done, .done, .done, .done, .script none, .script (some (bare "exit")),
        .script none, .done, .size 1] := by
  have rising : shift.Pairwise fun earlier later => earlier.time < later.time := by decide
  have queued := (serve_queue 2 ⟨10⟩ (by decide) (by decide) shift rising).1
  exact ⟨by decide, by decide, rising, queued.trans rfl⟩

end Cache

end Lineside
