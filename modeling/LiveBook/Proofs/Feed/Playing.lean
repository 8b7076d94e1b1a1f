import LiveBook.Feed.Replay
import LiveBook.Proofs.Source.Streams

/-!
# Playing a feed

A feed is played while markets are subscribed to and not any more, prices are asked for, and
forwarders come and go in each stream; further calls to play it come, and the one that plays it may
be dropped.

* `LiveBook.Replay.step`, `LiveBook.Replay.Course` – what can happen, and any run of it;
* `LiveBook.Replay.passed`, `LiveBook.Replay.isSubscribed` – the events that have had their turn,
  and whether a market is subscribed to, as the requests say;
* `LiveBook.Replay.wanted` – those of them whose market was subscribed to at their turn;
* `LiveBook.Replay.plays_of_course` – these come into the streams, in their order, and prices are
  those of the last trades that have had their turn.
-/

namespace LiveBook

namespace Replay

variable {φ : Type} [DecidableEq φ]

/-! ### Runs -/

/-- What can happen while a feed is played. -/
inductive Label (φ : Type) where
  /-- A call to play it begins. -/
  | call (now : ℕ)
  /-- The call that plays it is dropped. -/
  | abandon
  /-- The next turn comes. -/
  | turn (now : ℕ)
  | subscribe (m : MarketId)
  | unsubscribe (m : MarketId)
  /-- The prices of last trades are asked for. -/
  | ask (ms : List MarketId)
  /-- Something else than an event comes to the buffer of a stream. -/
  | stream (s : EventStream) (l : Relay.Label φ Event)

/-- What others see of it. -/
inductive Effect (φ : Type) where
  | answered (prices : Table MarketId Decimal)
  | handed (s : EventStream) (e : Relay.Effect φ Event)

/-- What happens while a feed is played, where it can. -/
def step (r : Replay φ) : Label φ → Option (Replay φ × List (Effect φ))
  | .call now => some (r.play now, [])
  | .abandon => some (r.abandon, [])
  | .turn now => (r.turn now).map fun r' => (r', [])
  | .subscribe m => some (r.subscribe m, [])
  | .unsubscribe m => some (r.unsubscribe m, [])
  | .ask ms => some (r, [.answered (r.lastPrices ms)])
  | .stream _ (.dispatch _) => none
  | .stream s l => ((r.fanout.relays.get s).step l).map fun (_, es) =>
    ({ r with fanout := r.fanout.apply s l }, es.map (.handed s))

/-- **A moment of a replay**: one step. -/
structure Moment (φ : Type) [DecidableEq φ] where
  before : Replay φ
  label : Label φ
  effects : List (Effect φ)
  after : Replay φ
  step : before.step label = some (after, effects)

/-- **Any moments,** one after the other. -/
inductive Course (r : Replay φ) : List (Moment φ) → Replay φ → Prop where
  | nil : Course r [] r
  | snoc {xs : List (Moment φ)} {x : Moment φ} (before : Course r xs x.before) :
      Course r (xs ++ [x]) x.after

variable {r r' r₀ : Replay φ} {x : Moment φ} {xs ys before : List (Moment φ)} {feed : Feed}
  {pace : ℕ} {markets : List MarketId} {m : MarketId} {es : List Event}

omit [DecidableEq φ] in
/-- A call to play the feed does so if it is the first. -/
theorem play_cases (r : Replay φ) (now : ℕ) : ∃ p, r.play now = { r with player := p } ∧
    p ≠ .idle ∧ (p = .finished → r.player = .finished) := by
  unfold play
  split
  next => exact ⟨_, rfl, nofun, nofun⟩
  next hbegun => exact ⟨_, rfl, hbegun, id⟩

omit [DecidableEq φ] in
/-- The call that plays the feed is dropped, if there is one. -/
theorem abandon_cases (r : Replay φ) : ∃ p, r.abandon = { r with player := p } ∧
    (p = .idle ↔ r.player = .idle) ∧ (p = .finished → r.player = .finished) := by
  unfold abandon
  split
  next hplaying => exact ⟨_, rfl, by simp [hplaying], nofun⟩
  next => exact ⟨_, rfl, Iff.rfl, id⟩

/-- **What can happen while a feed is played.** -/
inductive Happens (r : Replay φ) : Label φ → List (Effect φ) → Replay φ → Prop where
  | called {p : Player} (now : ℕ) (begun : p ≠ .idle)
      (last : p = .finished → r.player = .finished) :
      Happens r (.call now) [] { r with player := p }
  | abandoned {p : Player} (begun : p = .idle ↔ r.player = .idle)
      (last : p = .finished → r.player = .finished) : Happens r .abandon [] { r with player := p }
  | passed {due now : ℕ} {e : Event} {rest : List Event} (playing : r.player = .playing due)
      (next : r.upcoming = e :: rest) :
      Happens r (.turn now) []
        { (r.notePrice e).pass e with upcoming := rest, player := .playing (now + r.pace) }
  | finished {due now : ℕ} (playing : r.player = .playing due) (next : r.upcoming = []) :
      Happens r (.turn now) [] { r with player := .finished }
  | subscribed (m : MarketId) : Happens r (.subscribe m) [] (r.subscribe m)
  | unsubscribed (m : MarketId) : Happens r (.unsubscribe m) [] (r.unsubscribe m)
  | asked (ms : List MarketId) : Happens r (.ask ms) [.answered (r.lastPrices ms)] r
  | streamed {s : EventStream} {l : Relay.Label φ Event} {q : Relay φ Event}
      {es : List (Relay.Effect φ Event)} (step : (r.fanout.relays.get s).step l = some (q, es))
      (other : ∀ e, l ≠ .dispatch e) :
      Happens r (.stream s l) (es.map (.handed s)) { r with fanout := r.fanout.apply s l }

theorem step_happens {l : Label φ} {fx : List (Effect φ)} (h : r.step l = some (r', fx)) :
    r.Happens l fx r' := by
  cases l with
  | call now =>
    obtain ⟨p, hplay, hbegun, hlast⟩ := play_cases r now
    rw [step, hplay] at h
    cases h
    exact .called now hbegun hlast
  | abandon =>
    obtain ⟨p, habandon, hbegun, hlast⟩ := abandon_cases r
    rw [step, habandon] at h
    cases h
    exact .abandoned hbegun hlast
  | turn now =>
    obtain ⟨r', hturn, heq⟩ := Option.map_eq_some_iff.mp h
    cases heq
    obtain ⟨⟨due, hplaying, -⟩, ⟨hnone, rfl⟩ | ⟨e, rest, hnext, rfl⟩⟩ := turn_cases hturn
    · exact .finished hplaying hnone
    · exact .passed hplaying hnext
  | subscribe m => cases h; exact .subscribed m
  | unsubscribe m => cases h; exact .unsubscribed m
  | ask ms => cases h; exact .asked ms
  | stream s l =>
    have hother : ∀ e, l ≠ .dispatch e := by
      rintro e rfl
      cases h
    have hmap : ((r.fanout.relays.get s).step l).map (fun (_, es) =>
        (({ r with fanout := r.fanout.apply s l }, es.map (.handed s)) :
          Replay φ × List (Effect φ))) = some (r', fx) := by
      cases l <;> first | exact h | exact absurd rfl (hother _)
    obtain ⟨⟨q, es⟩, hstep, heq⟩ := Option.map_eq_some_iff.mp hmap
    cases heq
    exact .streamed hstep hother

theorem Moment.happens (x : Moment φ) : x.before.Happens x.label x.effects x.after :=
  step_happens x.step

/-! ### What is seen of a run -/

/-- The event that has its turn at a moment. -/
def Moment.passed? (x : Moment φ) : Option Event :=
  match x.label with
  | .turn _ => x.before.upcoming.head?
  | _ => none

/-- What a request at a moment says of a market. -/
def Moment.request? (x : Moment φ) (m : MarketId) : Option Bool :=
  match x.label with
  | .subscribe m' => if m' = m then some true else none
  | .unsubscribe m' => if m' = m then some false else none
  | _ => none

/-- Whether a call to play the feed begins. -/
def Moment.isCall (x : Moment φ) : Bool :=
  match x.label with
  | .call _ => true
  | _ => false

/-- The event that was taken out of the buffer of a stream, if one was. -/
def Effect.taken? (s : EventStream) : Effect φ → Option Event
  | .handed s' e => if s' = s then e.handling?.map Relay.Handling.item else none
  | .answered _ => none

/-- The price of a trade of a market. -/
def priceOf? (m : MarketId) : Event → Option Decimal
  | .trade t => if t.market = m then some t.price else none
  | _ => none

/-- **The events that have had their turn.** -/
def passed (xs : List (Moment φ)) : List Event := xs.filterMap Moment.passed?

/-- Whether a market is subscribed to: as the last request says that concerns it, or else as it was
when the feed was loaded. -/
def isSubscribed (markets : List MarketId) (xs : List (Moment φ)) (m : MarketId) : Bool :=
  (xs.filterMap (·.request? m)).getLast?.getD (m ∈ markets)

/-- **The events whose market was subscribed to at their turn,** where the moments `before` came
first. -/
def wanted (markets : List MarketId) (before : List (Moment φ)) : List (Moment φ) → List Event
  | [] => []
  | x :: xs => (x.passed?.filter fun e => isSubscribed markets before e.market).toList ++
    wanted markets (before ++ [x]) xs

/-- The events that were taken out of the buffer of a stream. -/
def taken (s : EventStream) (xs : List (Moment φ)) : List Event :=
  (xs.flatMap Moment.effects).filterMap (Effect.taken? s)

/-- The price of the last trade of a market among some events. -/
def lastPrice? (m : MarketId) (es : List Event) : Option Decimal :=
  (es.filterMap (priceOf? m)).getLast?

theorem passed_snoc : passed (xs ++ [x]) = passed xs ++ x.passed?.toList := by
  cases h : x.passed? <;> simp [passed, List.filterMap_append, h]

theorem taken_snoc (s : EventStream) :
    taken s (xs ++ [x]) = taken s xs ++ x.effects.filterMap (Effect.taken? s) := by
  simp [taken]

theorem isSubscribed_snoc : isSubscribed markets (xs ++ [x]) m =
    (x.request? m).getD (isSubscribed markets xs m) := by
  cases h : x.request? m <;> simp [isSubscribed, List.filterMap_append, h]

theorem wanted_snoc : wanted markets before (xs ++ [x]) = wanted markets before xs ++
    (x.passed?.filter fun e => isSubscribed markets (before ++ xs) e.market).toList := by
  induction xs generalizing before with
  | nil => simp [wanted]
  | cons y xs ih => simp [wanted, ih]

/-! ### Prices -/

theorem lastPrice?_snoc (e : Event) :
    lastPrice? m (es ++ [e]) = (priceOf? m e).or (lastPrice? m es) := by
  cases h : priceOf? m e <;> simp [lastPrice?, List.filterMap_append, h]

omit [DecidableEq φ] in
/-- The price of a trade is remembered as that of the last trade of its market. -/
theorem get?_prices_notePrice (r : Replay φ) (e : Event) (m : MarketId) :
    (r.notePrice e).prices.get? m = (priceOf? m e).or (r.prices.get? m) := by
  cases e with
  | trade t =>
    rw [notePrice, Table.get?_set, priceOf?]
    split <;> rfl
  | diff | snapshot => rfl

/-- A table into which prices are put, of some markets, as far as there are any. -/
theorem get?_foldl {f : Table MarketId Decimal → MarketId → Table MarketId Decimal}
    {p? : MarketId → Option Decimal}
    (put : ∀ t m m', (f t m).get? m' = if m = m' then (p? m').or (t.get? m') else t.get? m')
    (ms : List MarketId) (t : Table MarketId Decimal) (m : MarketId) :
    (ms.foldl f t).get? m = if m ∈ ms then (p? m).or (t.get? m) else t.get? m := by
  induction ms generalizing t with
  | nil => simp
  | cons m' ms ih =>
    rw [List.foldl_cons, ih, put]
    rcases eq_or_ne m' m with rfl | hm
    · cases h : p? m' <;> simp
    · simp [hm, hm.symm]

omit [DecidableEq φ] in
/-- **Prices are told** of the markets that were asked for, as far as there are any. -/
theorem get?_lastPrices (r : Replay φ) (ms : List MarketId) (m : MarketId) :
    (r.lastPrices ms).get? m = if m ∈ ms then r.prices.get? m else none := by
  refine (@get?_foldl _ r.prices.get? (fun t m m' => ?_) ms .empty m).trans (by simp)
  rcases eq_or_ne m m' with rfl | hm
  · cases h : r.prices.get? m <;> simp
  · cases h : r.prices.get? m <;> simp [hm]

/-! ### The buffers of the streams -/

/-- **The turn of an event** makes it wait in its stream if its market is subscribed to. -/
theorem buffered_pass (r : Replay φ) (e : Event) (s : EventStream) :
    ((r.pass e).fanout.relays.get s).buffered = (r.fanout.relays.get s).buffered ++
      (([e].filter fun e => r.subscriptions.contains e.market).filter fun e => e.stream = s) := by
  rw [fanout_pass]
  split
  next hin =>
    rw [Fanout.buffered_dispatch]
    by_cases hs : e.stream = s <;> simp [hin, hs]
  next hout => simp [hout]

/-- **Whatever forwarders do,** what was taken out of a buffer and what is left there is what was
there before. -/
theorem taken_append_buffered {f : Fanout φ} {s s' : EventStream} {l : Relay.Label φ Event}
    {q : Relay φ Event} {es : List (Relay.Effect φ Event)}
    (step : (f.relays.get s).step l = some (q, es)) (other : ∀ e, l ≠ .dispatch e) :
    (es.map (.handed s)).filterMap (Effect.taken? s') ++
        ((f.apply s l).relays.get s').buffered = (f.relays.get s').buffered := by
  rw [Fanout.apply, PerStream.get_update, List.filterMap_map]
  by_cases hs : s = s'
  · subst hs
    let x : Relay.Moment φ Event := ⟨f.relays.get s, l, es, q, step⟩
    have hnone : Relay.dispatched [x] = [] := by
      cases l <;> first | rfl | exact absurd rfl (other _)
    have horder := x.order
    rw [hnone, List.append_nil] at horder
    rw [if_pos rfl, step, ← horder]
    simp [Relay.handled, x, Effect.taken?, Function.comp_def, List.map_filterMap]
  · simp [hs, Effect.taken?, Function.comp_def]

/-! ### How far the playing has come -/

/-- **How far the playing has come** when all this has happened. -/
structure Keeps (feed : Feed) (markets : List MarketId) (xs : List (Moment φ)) (r : Replay φ) :
    Prop where
  order : passed xs ++ r.upcoming = feed.events
  begun : r.player = .idle ↔ ∀ x ∈ xs, x.isCall = false
  finished : r.player = .finished → r.upcoming = []
  subscriptions : ∀ m, r.subscriptions.contains m = isSubscribed markets xs m
  prices : ∀ m, r.prices.get? m = lastPrice? m (passed xs)
  streams : ∀ s, taken s xs ++ (r.fanout.relays.get s).buffered =
    (wanted markets [] xs).filter fun e => e.stream = s

theorem keeps_ofFeed (feed : Feed) (pace : ℕ) (markets : List MarketId) :
    Keeps feed markets ([] : List (Moment φ)) (ofFeed feed pace markets) where
  order := rfl
  begun := by simp [ofFeed]
  finished h := by cases h
  subscriptions m := by
    rw [Bool.eq_iff_iff, SubscriptionRegistry.contains_iff, ofFeed, SubscriptionRegistry.mem_addAll]
    simp [isSubscribed, SubscriptionRegistry.empty]
  prices m := rfl
  streams s := by cases s <;> rfl

/-- A moment at which no event has its turn. -/
theorem Keeps.quiet (h : Keeps feed markets xs x.before) (passes : x.passed? = none)
    (upcoming : x.after.upcoming = x.before.upcoming) (prices : x.after.prices = x.before.prices)
    (begun : x.after.player = .idle ↔ x.before.player = .idle ∧ x.isCall = false)
    (finished : x.after.player = .finished → x.before.upcoming = [])
    (subscriptions : ∀ m, x.after.subscriptions.contains m =
      (x.request? m).getD (x.before.subscriptions.contains m))
    (streams : ∀ s, x.effects.filterMap (Effect.taken? s) ++
      (x.after.fanout.relays.get s).buffered = (x.before.fanout.relays.get s).buffered) :
    Keeps feed markets (xs ++ [x]) x.after where
  order := by rw [passed_snoc, passes, upcoming, ← h.order]; simp
  begun := by rw [begun, h.begun, List.forall_mem_append, List.forall_mem_singleton]
  finished hf := upcoming.trans (finished hf)
  subscriptions m := by rw [subscriptions, isSubscribed_snoc, h.subscriptions]
  prices m := by rw [prices, h.prices, passed_snoc, passes]; simp
  streams s := by
    rw [taken_snoc, List.append_assoc, streams, h.streams, wanted_snoc, passes]
    simp

/-- **Every moment.** -/
theorem Keeps.snoc (h : Keeps feed markets xs x.before) :
    Keeps feed markets (xs ++ [x]) x.after := by
  obtain ⟨r, l, fx, r', hstep⟩ := x
  cases step_happens hstep with
  | called now begun last =>
    refine h.quiet rfl rfl rfl ?_ (h.finished ∘ last) (fun _ => rfl) fun _ => rfl
    exact iff_of_false begun fun hidle => by cases hidle.2
  | abandoned begun last =>
    exact h.quiet rfl rfl rfl (begun.trans (and_iff_left rfl).symm) (h.finished ∘ last)
      (fun _ => rfl) fun _ => rfl
  | @passed due now e rest playing next =>
    have hpassed : passed (xs ++ [⟨r, .turn now, _, _, hstep⟩]) = passed xs ++ [e] := by
      rw [passed_snoc]
      simp [Moment.passed?, next]
    refine ⟨?_, ?_, fun hf => (by cases hf), fun m => ?_, fun m => ?_, fun s => ?_⟩
    · rw [hpassed, ← h.order, next, List.append_assoc]
      rfl
    · -- events have their turn only after a call
      refine iff_of_false (fun hidle => by cases hidle) fun hcalls => ?_
      have hidle := h.begun.mpr fun y hy => hcalls y (List.mem_append_left _ hy)
      cases playing.symm.trans hidle
    · rw [isSubscribed_snoc, ← h.subscriptions]
      simp [Moment.request?]
    · rw [hpassed, lastPrice?_snoc, ← h.prices, ← get?_prices_notePrice]
      simp
    · -- the registry says of the market what the requests up to now say
      have hwanted :
          (r.upcoming.head?.filter fun e => isSubscribed markets ([] ++ xs) e.market).toList =
            [e].filter fun e => (r.notePrice e).subscriptions.contains e.market := by
        cases hin : isSubscribed markets xs e.market <;> simp [next, h.subscriptions, hin]
      rw [taken_snoc, wanted_snoc, List.filter_append, ← h.streams]
      dsimp only [Moment.passed?]
      rw [buffered_pass, hwanted]
      simp
  | finished playing next =>
    refine h.quiet (congrArg List.head? next) rfl rfl ?_ (fun _ => next) (fun _ => rfl) fun _ => rfl
    exact iff_of_false (fun hidle => by cases hidle) fun hidle => by
      cases playing.symm.trans hidle.1
  | subscribed m =>
    refine h.quiet rfl rfl rfl (and_iff_left rfl).symm h.finished (fun m' => ?_) fun _ => rfl
    rw [Bool.eq_iff_iff, SubscriptionRegistry.contains_iff]
    refine SubscriptionRegistry.mem_add.trans ?_
    rw [← SubscriptionRegistry.contains_iff]
    rcases eq_or_ne m m' with rfl | hm
    · simp [Moment.request?]
    · simp [Moment.request?, hm, hm.symm]
  | unsubscribed m =>
    refine h.quiet rfl rfl rfl (and_iff_left rfl).symm h.finished (fun m' => ?_) fun _ => rfl
    rw [Bool.eq_iff_iff, SubscriptionRegistry.contains_iff]
    refine SubscriptionRegistry.mem_remove.trans ?_
    rw [← SubscriptionRegistry.contains_iff]
    rcases eq_or_ne m m' with rfl | hm
    · simp [Moment.request?]
    · simp [Moment.request?, hm, hm.symm]
  | asked ms =>
    exact h.quiet rfl rfl rfl (and_iff_left rfl).symm h.finished (fun _ => rfl) fun _ => rfl
  | streamed step other =>
    exact h.quiet rfl rfl rfl (and_iff_left rfl).symm h.finished (fun _ => rfl) fun s =>
      taken_append_buffered step other

/-! ### Runs of a feed -/

theorem keeps_of_course (h : Course (ofFeed feed pace markets) xs r) : Keeps feed markets xs r := by
  induction h with
  | nil => exact keeps_ofFeed feed pace markets
  | snoc _ ih => exact ih.snoc

/-- Only what has its turn is wanted. -/
theorem wanted_sublist : (wanted markets before xs).Sublist (passed xs) := by
  induction xs generalizing before with
  | nil => exact .refl []
  | cons x xs ih =>
    have hcons : passed (x :: xs) = x.passed?.toList ++ passed xs := by
      cases h : x.passed? <;> simp [passed, h]
    rw [wanted, hcons]
    refine .append ?_ ih
    cases h : x.passed? with
    | none => exact .refl []
    | some e => cases hin : isSubscribed markets before e.market <;> simp [hin]

/-- **A turn comes when it is due.** The last one finishes the feed. -/
theorem turn_of_playing {due now : ℕ} (playing : r.player = .playing due) (time : due ≤ now) :
    ∃ r', r.step (.turn now) = some (r', []) ∧ (r'.isFinished = true ↔ r.upcoming = []) := by
  have hdue : ¬now < due := Nat.not_lt.mpr time
  cases hnext : r.upcoming with
  | nil => exact ⟨{ r with player := .finished }, by simp [step, turn, playing, hdue, hnext],
      by simp [isFinished]⟩
  | cons e rest => exact ⟨{ (r.notePrice e).pass e with
      upcoming := rest, player := .playing (now + r.pace) },
      by simp [step, turn, playing, hdue, hnext], by simp [isFinished]⟩

/-- **A feed is played once, to those who have subscribed.** However requests, questions, calls to
play the feed, and forwarders of its streams come between its events: the events that have had their
turn are those in front of the others. What was taken out of the buffer of a stream, and then what
still waits there, are in their order those of its events whose market was subscribed to at their
turn. The prices are those of the last trades that have had their turn, whether they were subscribed
to or not. The feed is finished only when every event has had its turn, and it is played from the
first call on, unless this call is dropped. -/
theorem plays_of_course (h : Course (ofFeed feed pace markets) xs r) :
    passed xs ++ r.upcoming = feed.events ∧
    (wanted markets [] xs).Sublist (passed xs) ∧
    (∀ s, taken s xs ++ (r.fanout.relays.get s).buffered =
      (wanted markets [] xs).filter fun e => e.stream = s) ∧
    (∀ ms, ∃ t, r.step (.ask ms) = some (r, [.answered t]) ∧
      ∀ m, t.get? m = if m ∈ ms then lastPrice? m (passed xs) else none) ∧
    (r.isFinished = true → passed xs = feed.events) ∧
    (r.player = .idle ↔ ∀ x ∈ xs, x.isCall = false) ∧
    ∀ due now, r.player = .playing due → due ≤ now →
      ∃ r', r.step (.turn now) = some (r', []) ∧ (r'.isFinished = true ↔ r.upcoming = []) := by
  have hkeeps := keeps_of_course h
  refine ⟨hkeeps.order, wanted_sublist, hkeeps.streams, fun ms => ⟨_, rfl, fun m => ?_⟩,
    fun hf => ?_, hkeeps.begun, fun due now => turn_of_playing⟩
  · rw [get?_lastPrices, hkeeps.prices]
  · rw [← hkeeps.order, hkeeps.finished (by simpa [isFinished] using hf), List.append_nil]

theorem Course.append (h : Course r₀ xs r) (h' : Course r ys r') : Course r₀ (xs ++ ys) r' := by
  induction h' with
  | nil => rwa [List.append_nil]
  | snoc _ ih =>
    rw [← List.append_assoc]
    exact .snoc ih

/-- **Playing on for some time** is such a run, in which only turns come. -/
theorem course_playFor (fuel time : ℕ) : ∀ r : Replay φ, ∃ xs, Course r xs (playFor fuel r time) ∧
    ∀ x ∈ xs, ∃ now ≤ time, x.label = .turn now := by
  induction fuel with
  | zero => exact fun r => ⟨[], .nil, by simp⟩
  | succ fuel ih =>
    intro r
    cases hdue : r.due? with
    | none => exact ⟨[], by simpa [playFor, hdue] using Course.nil, by simp⟩
    | some due =>
      by_cases hle : due ≤ time
      · cases hturn : r.turn due with
        | none => exact ⟨[], by simpa [playFor, hdue, hle, hturn] using Course.nil, by simp⟩
        | some r' =>
          obtain ⟨xs, hcourse, hlabels⟩ := ih r'
          let x : Moment φ := ⟨r, .turn due, [], r', by simp [step, hturn]⟩
          have first : Course r [x] r' := .snoc (x := x) .nil
          refine ⟨x :: xs, ?_, List.forall_mem_cons.mpr ⟨⟨due, hle, rfl⟩, hlabels⟩⟩
          simpa [playFor, hdue, hle, hturn] using first.append hcourse
      · exact ⟨[], by simpa [playFor, hdue, hle] using Course.nil, by simp⟩

/-- The moments with these labels, as far as they are possible, and where they lead. -/
def moments (r : Replay φ) : List (Label φ) → List (Moment φ) × Replay φ
  | [] => ([], r)
  | l :: ls =>
    match h : r.step l with
    | some (r', fx) => (⟨r, l, fx, r', h⟩ :: (moments r' ls).1, (moments r' ls).2)
    | none => ([], r)

theorem course_moments (ls : List (Label φ)) :
    ∀ r : Replay φ, Course r (moments r ls).1 (moments r ls).2 := by
  induction ls with
  | nil => exact fun r => .nil
  | cons l ls ih =>
    intro r
    unfold moments
    split
    next r' fx h =>
      have first : Course r [⟨r, l, fx, r', h⟩] r' := .snoc (x := ⟨r, l, fx, r', h⟩) .nil
      exact first.append (ih r')
    next => exact .nil

/-- A trade, for a price. -/
def sampleTrade (price : ℕ) : Event :=
  .trade ⟨⟨"A"⟩, "t", default, (Decimal.ofParts? false price 0).getD .zero, .zero, .buy⟩

/-- A market is subscribed to for two of five events; the feed is played to its end. -/
def sampleMoments : List (Moment ℕ) × Replay ℕ :=
  moments (ofFeed (.ofEvents [Fanout.sampleDiff 1, sampleTrade 100, Fanout.sampleDiff 2,
      sampleTrade 101, Fanout.sampleDiff 3]) 10 [])
    [.call 0, .turn 0, .subscribe ⟨"A"⟩, .call 5, .turn 10, .stream .diff (.join 1), .turn 20,
      .stream .diff .forward, .unsubscribe ⟨"A"⟩, .turn 30, .turn 40, .turn 50]

theorem plays_of_course_sample :
    sampleMoments.2.isFinished = true ∧
    passed sampleMoments.1 = [Fanout.sampleDiff 1, sampleTrade 100, Fanout.sampleDiff 2,
      sampleTrade 101, Fanout.sampleDiff 3] ∧
    lastPrice? ⟨"A"⟩ (passed sampleMoments.1) = Decimal.ofParts? false 101 0 ∧
    taken .diff sampleMoments.1 ++ (sampleMoments.2.fanout.relays.get .diff).buffered =
      [Fanout.sampleDiff 2] := by
  have hcourse : Course (ofFeed _ 10 []) sampleMoments.1 sampleMoments.2 := course_moments _ _
  obtain ⟨-, -, hstreams, -, hfinished, -⟩ := plays_of_course hcourse
  have hend : sampleMoments.2.isFinished = true := by decide
  exact ⟨hend, hfinished hend, by decide, (hstreams .diff).trans (by decide)⟩

end Replay

end LiveBook
