import LiveBook.Event.Codec
import LiveBook.Proofs.Decimal.Notation
import LiveBook.Proofs.Json.Reading
import LiveBook.Proofs.Json.Records
import LiveBook.Proofs.Time.Notation

/-!
# Events are decoded as they were encoded

An event can be given in many ways. Once it is decoded, nothing is left of the way in which it was
given: its text is the one text of that event, and is decoded to the same event again, at whatever
time it is received (`LiveBook.Event.decode_text_of_decode`).

The two halves meet in the well-formed events: those that are decoded are among them, and those are
decoded as they were encoded.
-/

namespace LiveBook

open Json (Document Record Value)
open Number (twoTo)

variable {received : Time.Timestamp}

/-! ### What is decoded -/

theorem Time.Timestamp.isValid_of_decode {d : Document} {t : Time.Timestamp}
    (h : Time.Timestamp.decode d = .ok t) : t.IsValid := by
  unfold Time.Timestamp.decode at h
  split at h
  next s =>
    split at h
    next ht =>
      obtain rfl := Except.ok.inj h
      exact Time.Timestamp.isValid_of_parse ht
    next => cases h
  next => exact absurd h Json.wrongType_ne_ok

theorem forall_mem_some {α : Type} {P : α → Prop} {a : α} (h : P a) : ∀ a' ∈ some a, P a' :=
  fun _ ha' => Option.some.inj ha' ▸ h

theorem present_eq_ok {α : Type} {name : String} {o : Option α} {a : α}
    (h : Json.present name o = .ok a) : o = some a := by
  cases o with
  | none => cases h
  | some a' => rw [Except.ok.inj h]

theorem Decimal.isNormal_of_decode {d : Document} {x : Decimal} (h : Decimal.decode d = .ok x) :
    x.IsNormal := by
  unfold Decimal.decode at h
  dsimp only at h
  split at h
  case h_4 => exact absurd h Json.wrongType_ne_ok
  all_goals
    split at h
    next hx =>
      obtain rfl := Except.ok.inj h
      exact isNormal_of_parse hx
    next => exact absurd h Json.wrongValue_ne_ok

/-- A level whose price and size are in normal form. -/
structure Level.IsNormal (l : Level) : Prop where
  price : l.price.IsNormal
  size : l.size.IsNormal

theorem Level.isNormal_of_decode {d : Document} {l : Level} (h : Level.decode d = .ok l) :
    l.IsNormal := by
  have hkeeps : fields.Keeps fun s => (∀ x ∈ s.1, x.IsNormal) ∧ ∀ x ∈ s.2, x.IsNormal := by
    intro f hf d s s' hread hs
    simp only [fields, List.mem_cons, List.not_mem_nil, or_false] at hf
    obtain rfl | rfl := hf
    all_goals
      obtain ⟨x, hx, hs'⟩ := bind_eq_ok.mp hread
      obtain rfl := Except.ok.inj hs'
    case inl => exact ⟨forall_mem_some (Decimal.isNormal_of_decode hx), hs.2⟩
    case inr => exact ⟨hs.1, forall_mem_some (Decimal.isNormal_of_decode hx)⟩
  have hstart : ∀ x ∈ (none : Option Decimal), x.IsNormal := nofun
  obtain ⟨s, hs, hfinish⟩ := hkeeps.exists_of_decode ⟨hstart, hstart⟩ h
  obtain ⟨price, hprice, hfinish⟩ := bind_eq_ok.mp hfinish
  obtain ⟨size, hsize, hfinish⟩ := bind_eq_ok.mp hfinish
  obtain rfl := Except.ok.inj hfinish
  exact ⟨hs.1 price (present_eq_ok hprice), hs.2 size (present_eq_ok hsize)⟩

/-- A draft whose sequence number has 64 bits, whose time is valid, and whose decimals are in normal
form. -/
structure LevelsDraft.IsWellFormed (s : LevelsDraft) : Prop where
  sequence : ∀ n ∈ s.sequence, n < twoTo 64
  timestamp : ∀ t ∈ s.timestamp, t.IsValid
  bids : ∀ l ∈ s.bids, l.IsNormal
  asks : ∀ l ∈ s.asks, l.IsNormal

/-- Whichever field is read next, the draft stays well-formed. -/
theorem LevelsDraft.keeps_isWellFormed (name : String) :
    (LevelsDraft.fields name).Keeps LevelsDraft.IsWellFormed := by
  intro f hf d s s' hread hs
  simp only [fields, List.mem_cons, List.not_mem_nil, or_false] at hf
  rcases hf with rfl | rfl | rfl | rfl | rfl
  all_goals
    obtain ⟨x, hx, hs'⟩ := bind_eq_ok.mp hread
    obtain rfl := Except.ok.inj hs'
  case inl => exact ⟨hs.sequence, hs.timestamp, hs.bids, hs.asks⟩
  case inr.inl =>
    exact ⟨forall_mem_some (Json.unsigned_lt hx), hs.timestamp, hs.bids, hs.asks⟩
  case inr.inr.inl =>
    exact ⟨hs.sequence, forall_mem_some (Time.Timestamp.isValid_of_decode hx), hs.bids, hs.asks⟩
  case inr.inr.inr.inl =>
    exact ⟨hs.sequence, hs.timestamp,
      Json.forall_of_list (fun _ _ => Level.isNormal_of_decode) hx, hs.asks⟩
  case inr.inr.inr.inr =>
    exact ⟨hs.sequence, hs.timestamp, hs.bids,
      Json.forall_of_list (fun _ _ => Level.isNormal_of_decode) hx⟩

/-- How a diff or a snapshot is made from its draft. -/
def LevelsDraft.finish {α : Type} (received : Time.Timestamp)
    (make : MarketId → ℕ → Time.Timestamp → List Level → List Level → α) (s : LevelsDraft) :
    Json.Decode α := do
  let market ← Json.present "market" s.market
  let sequence ← Json.present "sequence" s.sequence
  return make market sequence (s.timestamp.getD received) s.bids s.asks

theorem Diff.decode_eq (received : Time.Timestamp) (d : Document) :
    Diff.decode received d = (LevelsDraft.fields "DiffEvent").decode .buffered {}
      (LevelsDraft.finish received Diff.mk) d := rfl

theorem Snapshot.decode_eq (received : Time.Timestamp) (d : Document) :
    Snapshot.decode received d = (LevelsDraft.fields "SnapshotEvent").decode .buffered {}
      (LevelsDraft.finish received Snapshot.mk) d := rfl

theorem getD_isValid (hreceived : received.IsValid) {o : Option Time.Timestamp}
    (h : ∀ t ∈ o, t.IsValid) : (o.getD received).IsValid := by
  cases o with
  | none => exact hreceived
  | some t => exact h t rfl

/-- **A diff or a snapshot that was decoded** has a number of 64 bits, a valid time, and levels in
normal form. -/
theorem LevelsDraft.exists_of_decode {α : Type} {name : String} {d : Document} {a : α}
    {make : MarketId → ℕ → Time.Timestamp → List Level → List Level → α}
    (hreceived : received.IsValid)
    (h : (fields name).decode .buffered {} (finish received make) d = .ok a) :
    ∃ market sequence timestamp bids asks, sequence < twoTo 64 ∧ timestamp.IsValid ∧
      (∀ l ∈ bids, l.IsNormal) ∧ (∀ l ∈ asks, l.IsNormal) ∧
      a = make market sequence timestamp bids asks := by
  have hstart : LevelsDraft.IsWellFormed {} := ⟨nofun, nofun, nofun, nofun⟩
  obtain ⟨s, hs, hfinish⟩ := (keeps_isWellFormed name).exists_of_decode hstart h
  obtain ⟨market, -, hfinish⟩ := bind_eq_ok.mp hfinish
  obtain ⟨sequence, hsequence, hfinish⟩ := bind_eq_ok.mp hfinish
  exact ⟨market, sequence, s.timestamp.getD received, s.bids, s.asks,
    hs.sequence sequence (present_eq_ok hsequence), getD_isValid hreceived hs.timestamp,
    hs.bids, hs.asks, (Except.ok.inj hfinish).symm⟩

/-- A draft whose time is valid, and whose decimals are in normal form. -/
structure TradeDraft.IsWellFormed (s : TradeDraft) : Prop where
  timestamp : ∀ t ∈ s.timestamp, t.IsValid
  price : ∀ x ∈ s.price, x.IsNormal
  amount : ∀ x ∈ s.amount, x.IsNormal

theorem TradeDraft.keeps_isWellFormed : TradeDraft.fields.Keeps TradeDraft.IsWellFormed := by
  intro f hf d s s' hread hs
  simp only [fields, List.mem_cons, List.not_mem_nil, or_false] at hf
  rcases hf with rfl | rfl | rfl | rfl | rfl | rfl
  all_goals
    obtain ⟨x, hx, hs'⟩ := bind_eq_ok.mp hread
    obtain rfl := Except.ok.inj hs'
  case inr.inr.inl =>
    exact ⟨forall_mem_some (Time.Timestamp.isValid_of_decode hx), hs.price, hs.amount⟩
  case inr.inr.inr.inl =>
    exact ⟨hs.timestamp, forall_mem_some (Decimal.isNormal_of_decode hx), hs.amount⟩
  case inr.inr.inr.inr.inl =>
    exact ⟨hs.timestamp, hs.price, forall_mem_some (Decimal.isNormal_of_decode hx)⟩
  -- the market, the name and the side
  all_goals exact ⟨hs.timestamp, hs.price, hs.amount⟩

/-! ### What is encoded -/

/-- The members of an event behind its tag. -/
def Event.members : Event → List (String × Value)
  | .diff e => levelsMembers e.market e.sequence e.timestamp e.bids e.asks
  | .snapshot e => levelsMembers e.market e.sequence e.timestamp e.bids e.asks
  | .trade e => [("market", e.market.toJson), ("trade_id", .string e.id),
      ("timestamp", .string e.timestamp.text), ("price", e.price.toJson),
      ("amount", e.amount.toJson), ("side", .string e.side.name)]

@[simp]
theorem MarketId.decode_document (m : MarketId) : MarketId.decode m.toJson.document = .ok m := rfl

theorem Decimal.decode_document {d : Decimal} (h : d.IsNormal) :
    Decimal.decode d.toJson.document = .ok d := by
  simp [Decimal.decode, toJson, Value.document, parse_text h]

theorem Time.Timestamp.decode_document {t : Time.Timestamp} (h : t.IsValid) :
    Time.Timestamp.decode (Value.string t.text).document = .ok t := by
  simp [Time.Timestamp.decode, Value.document, parse_text h]

theorem u64_document {n : ℕ} (h : n < twoTo 64) : Json.u64 (Value.nat n).document = .ok n := by
  simp [Json.u64, Json.unsigned, Value.nat, Value.document, h]

theorem Level.decode_document {l : Level} (h : l.IsNormal) :
    Level.decode l.toJson.document = .ok l := by
  simp [Level.decode, toJson, Value.document, Json.memberDocuments, Record.decode, fields,
    Record.readMembers, Decimal.decode_document h.price, Decimal.decode_document h.size,
    Json.checkEnding, Json.present]

theorem Level.list_document {ls : List Level} (h : ∀ l ∈ ls, l.IsNormal) :
    Json.list Level.decode (Value.list Level.toJson ls).document = .ok ls := by
  have hitems : (Json.itemDocuments (ls.map Level.toJson)).mapM Level.decode = .ok ls := by
    induction ls with
    | nil => rfl
    | cons l ls ih =>
      obtain ⟨hl, hls⟩ := List.forall_mem_cons.mp h
      simp [Json.itemDocuments, Level.decode_document hl, ih hls]
  simp [Json.list, Value.list, Value.document, hitems, Json.checkEnding]

theorem Level.list_fault? (ls : List Level) (depth : ℕ) :
    (Value.list Level.toJson ls).document.fault? (depth + 2) = none := by
  have hitems : Json.itemsFault? (depth + 1) (Json.itemDocuments (ls.map Level.toJson)) = none := by
    induction ls with
    | nil => rfl
    | cons l ls ih =>
      have hlevel : l.toJson.document.fault? (depth + 1) = none := rfl
      simp [Json.itemDocuments, Json.itemsFault?, hlevel, ih]
  simp [Value.list, Value.document, Document.fault?, hitems]

theorem Level.list_isPlain (ls : List Level) : (Value.list Level.toJson ls).IsPlain := by
  refine .array fun v hv => ?_
  obtain ⟨l, -, rfl⟩ := List.mem_map.mp hv
  refine .object ?_
  simp [Decimal.toJson, Value.IsPlain.string]

/-- **A diff or a snapshot is put together from its members.** -/
theorem LevelsDraft.decode_members {α : Type} (received : Time.Timestamp) (name : String)
    (make : MarketId → ℕ → Time.Timestamp → List Level → List Level → α) (market : MarketId)
    {sequence : ℕ} (hsequence : sequence < twoTo 64) {timestamp : Time.Timestamp}
    (htimestamp : timestamp.IsValid) {bids asks : List Level} (hbids : ∀ l ∈ bids, l.IsNormal)
    (hasks : ∀ l ∈ asks, l.IsNormal) :
    (LevelsDraft.fields name).decode .buffered {} (LevelsDraft.finish received make)
        (.object (Json.memberDocuments (levelsMembers market sequence timestamp bids asks)) none) =
      .ok (make market sequence timestamp bids asks) := by
  simp [levelsMembers, Json.memberDocuments, Record.decode, fields, Record.readMembers,
    u64_document hsequence, Time.Timestamp.decode_document htimestamp, Level.list_document hbids,
    Level.list_document hasks, Json.checkEnding, finish, Json.present]

@[simp]
theorem TradeSide.decode_document (side : TradeSide) :
    TradeSide.decode (Value.string side.name).document = .ok side := by
  cases side <;> rfl

theorem Trade.decode_members (e : Trade) (h : e.timestamp.IsValid) (hprice : e.price.IsNormal)
    (hamount : e.amount.IsNormal) :
    Trade.decode received (.object (Json.memberDocuments (Event.trade e).members) none) =
      .ok e := by
  have hid : Json.string (Value.string e.id).document = .ok e.id := rfl
  simp [Trade.decode, Event.members, Json.memberDocuments, Record.decode, TradeDraft.fields,
    Record.readMembers, Time.Timestamp.decode_document h, hid, Decimal.decode_document hprice,
    Decimal.decode_document hamount, Json.checkEnding, Json.present]

namespace Event

/-- **A well-formed event**: its sequence number has 64 bits, its time is valid, and none of its
decimals is a zero with a sign. -/
def IsWellFormed : Event → Prop
  | .diff e => e.sequence < twoTo 64 ∧ e.timestamp.IsValid ∧
      (∀ l ∈ e.bids, l.IsNormal) ∧ ∀ l ∈ e.asks, l.IsNormal
  | .snapshot e => e.sequence < twoTo 64 ∧ e.timestamp.IsValid ∧
      (∀ l ∈ e.bids, l.IsNormal) ∧ ∀ l ∈ e.asks, l.IsNormal
  | .trade e => e.timestamp.IsValid ∧ e.price.IsNormal ∧ e.amount.IsNormal

variable {s : EventStream} {e : Event}

theorem isWellFormed_of_decodeAs {d : Document} (hreceived : received.IsValid)
    (h : decodeAs received s d = .ok e) : e.IsWellFormed := by
  cases s with
  | diff =>
    obtain ⟨e', he', h⟩ := bind_eq_ok.mp h
    obtain rfl := Except.ok.inj h
    rw [Diff.decode_eq] at he'
    obtain ⟨_, _, _, _, _, hsequence, htimestamp, hbids, hasks, rfl⟩ :=
      LevelsDraft.exists_of_decode hreceived he'
    exact ⟨hsequence, htimestamp, hbids, hasks⟩
  | snapshot =>
    obtain ⟨e', he', h⟩ := bind_eq_ok.mp h
    obtain rfl := Except.ok.inj h
    rw [Snapshot.decode_eq] at he'
    obtain ⟨_, _, _, _, _, hsequence, htimestamp, hbids, hasks, rfl⟩ :=
      LevelsDraft.exists_of_decode hreceived he'
    exact ⟨hsequence, htimestamp, hbids, hasks⟩
  | trade =>
    obtain ⟨e', he', h⟩ := bind_eq_ok.mp h
    obtain rfl := Except.ok.inj h
    have hstart : TradeDraft.IsWellFormed {} := ⟨nofun, nofun, nofun⟩
    obtain ⟨s, hs, hfinish⟩ := TradeDraft.keeps_isWellFormed.exists_of_decode hstart he'
    obtain ⟨_, -, hfinish⟩ := bind_eq_ok.mp hfinish
    obtain ⟨_, -, hfinish⟩ := bind_eq_ok.mp hfinish
    obtain ⟨price, hprice, hfinish⟩ := bind_eq_ok.mp hfinish
    obtain ⟨amount, hamount, hfinish⟩ := bind_eq_ok.mp hfinish
    obtain ⟨_, -, hfinish⟩ := bind_eq_ok.mp hfinish
    obtain rfl := Except.ok.inj hfinish
    exact ⟨getD_isValid hreceived hs.timestamp, hs.price price (present_eq_ok hprice),
      hs.amount amount (present_eq_ok hamount)⟩

theorem isWellFormed_of_ofDocument {d : Document} (hreceived : received.IsValid)
    (h : ofDocument received d = .ok e) : e.IsWellFormed := by
  unfold ofDocument at h
  split at h
  next members ending =>
    obtain ⟨⟨found, others⟩, -, h⟩ := bind_eq_ok.mp h
    obtain ⟨-, -, h⟩ := bind_eq_ok.mp h
    obtain ⟨s, -, h⟩ := bind_eq_ok.mp h
    exact isWellFormed_of_decodeAs hreceived h
  next ending =>
    obtain ⟨-, -, h⟩ := bind_eq_ok.mp h
    cases h
  next first rest ending =>
    obtain ⟨s, -, h⟩ := bind_eq_ok.mp h
    obtain ⟨_, -, h⟩ := bind_eq_ok.mp h
    obtain ⟨-, -, h⟩ := bind_eq_ok.mp h
    exact isWellFormed_of_decodeAs hreceived h
  next => exact absurd h Json.wrongType_ne_ok

/-- **Every event that is decoded is well-formed.** -/
theorem isWellFormed_of_decode {text : String} (hreceived : received.IsValid)
    (h : decode received text = .ok e) : e.IsWellFormed := by
  obtain ⟨d, hd⟩ := Json.exists_of_decodeText h
  exact isWellFormed_of_ofDocument hreceived hd

/-! ### Decoding what was encoded -/

theorem toJson_eq (e : Event) :
    e.toJson = .object (("type", .string e.stream.name) :: e.members) := by
  cases e <;> rfl

theorem decodeAs_members (h : e.IsWellFormed) :
    decodeAs received e.stream (.object (Json.memberDocuments e.members) none) = .ok e := by
  cases e with
  | diff e =>
    obtain ⟨hsequence, htimestamp, hbids, hasks⟩ := h
    have hdiff := LevelsDraft.decode_members received "DiffEvent" Diff.mk e.market hsequence
      htimestamp hbids hasks
    rw [← Diff.decode_eq] at hdiff
    exact bind_eq_ok.mpr ⟨e, hdiff, rfl⟩
  | snapshot e =>
    obtain ⟨hsequence, htimestamp, hbids, hasks⟩ := h
    have hsnapshot := LevelsDraft.decode_members received "SnapshotEvent" Snapshot.mk e.market
      hsequence htimestamp hbids hasks
    rw [← Snapshot.decode_eq] at hsnapshot
    exact bind_eq_ok.mpr ⟨e, hsnapshot, rfl⟩
  | trade e => exact bind_eq_ok.mpr ⟨e, e.decode_members h.1 h.2.1 h.2.2, rfl⟩

/-- Members that are no tag are set aside. -/
theorem readTagged_others {found : Option EventStream} {others : List (String × Document)}
    (h : ∀ m ∈ others, m.1 ≠ "type" ∧ m.2.fault? (maxDepth - 1) = none) :
    readTagged found others = .ok (found, others) := by
  induction others with
  | nil => rfl
  | cons m others ih =>
    obtain ⟨hkey, hfault⟩ := h m List.mem_cons_self
    have hothers := ih fun m' hm' => h m' (List.mem_cons_of_mem m hm')
    simp [readTagged, hkey, setAside, hfault, Json.checkEnding, hothers]

theorem members_set_aside (e : Event) :
    ∀ m ∈ Json.memberDocuments e.members, m.1 ≠ "type" ∧ m.2.fault? (maxDepth - 1) = none := by
  have hlevels (market : MarketId) (sequence : ℕ) (timestamp : Time.Timestamp)
      (bids asks : List Level) :
      ∀ m ∈ Json.memberDocuments (levelsMembers market sequence timestamp bids asks),
        m.1 ≠ "type" ∧ m.2.fault? (maxDepth - 1) = none := by
    simp only [levelsMembers, Json.memberDocuments, List.forall_mem_cons]
    exact ⟨⟨by decide, rfl⟩, ⟨by decide, rfl⟩, ⟨by decide, rfl⟩,
      ⟨by decide, Level.list_fault? bids _⟩, ⟨by decide, Level.list_fault? asks _⟩, nofun⟩
  cases e with
  | diff e => exact hlevels _ _ _ _ _
  | snapshot e => exact hlevels _ _ _ _ _
  | trade e =>
    simp only [members, Json.memberDocuments, List.forall_mem_cons]
    exact ⟨⟨by decide, rfl⟩, ⟨by decide, rfl⟩, ⟨by decide, rfl⟩, ⟨by decide, rfl⟩,
      ⟨by decide, rfl⟩, ⟨by decide, rfl⟩, nofun⟩

theorem isPlain_members (h : e.IsWellFormed) : ∀ m ∈ e.members, m.2.IsPlain := by
  have hlevels {sequence : ℕ} (hsequence : sequence < twoTo 64) (market : MarketId)
      (timestamp : Time.Timestamp) (bids asks : List Level) :
      ∀ m ∈ levelsMembers market sequence timestamp bids asks, m.2.IsPlain := by
    simp only [levelsMembers, List.forall_mem_cons]
    exact ⟨.string _, .int (by omega) (by omega), .string _, Level.list_isPlain bids,
      Level.list_isPlain asks, nofun⟩
  cases e with
  | diff e => exact hlevels h.1 _ _ _ _
  | snapshot e => exact hlevels h.1 _ _ _ _
  | trade e =>
    simp only [members, List.forall_mem_cons]
    exact ⟨.string _, .string _, .string _, .string _, .string _, .string _, nofun⟩

theorem isPlain_toJson (h : e.IsWellFormed) : e.toJson.IsPlain := by
  rw [toJson_eq]
  exact .object (List.forall_mem_cons.mpr ⟨.string _, isPlain_members h⟩)

/-- **A well-formed event is decoded as it was encoded.** -/
theorem decode_text (h : e.IsWellFormed) : decode received e.text = .ok e := by
  refine Json.decodeText_eq_ok (Json.read_render (isPlain_toJson h)) ?_
  have htag : tag (Value.string e.stream.name).document = .ok e.stream := by
    cases e.stream <;> rfl
  have htagged : readTagged none
      (Json.memberDocuments (("type", .string e.stream.name) :: e.members)) =
        .ok (some e.stream, Json.memberDocuments e.members) := by
    simp [Json.memberDocuments, readTagged, htag, readTagged_others e.members_set_aside]
  rw [toJson_eq, Value.document]
  exact bind_eq_ok.mpr ⟨_, htagged, decodeAs_members h⟩

/-- **The round trip.** Take an event that was decoded from any text, and let the clock have shown a
valid time when that text was received. Then the text of the event is decoded, whenever it is
received itself, to an event that is the same in every field and has the same text. -/
theorem decode_text_of_decode (hreceived : received.IsValid) {text : String}
    (h : decode received text = .ok e) (received' : Time.Timestamp) :
    ∃ e', decode received' e.text = .ok e' ∧ e' = e ∧ e'.text = e.text :=
  ⟨e, decode_text (isWellFormed_of_decode hreceived h), rfl, rfl⟩

/-- A diff given as an array without asks: a price with an exponent, a size that is a number, a zero
with a sign, and a leap second away from universal time. -/
def sampleText : String :=
  r#" ["diff", "caf\u00e9 \ud83d\ude00", 7, "2016-12-31 15:59:60.25-0800",
    [["-1.50e2", 12], ["0.10", "-0.0"]]]"#

/-- The event in it. -/
def sampleEvent : Event :=
  .diff {
    market := ⟨"café 😀"⟩
    sequence := 7
    timestamp := ⟨1483228799, 1250000000⟩
    bids := [
      ⟨(Decimal.ofParts? true 150 0).getD .zero, (Decimal.ofParts? false 12 0).getD .zero⟩,
      ⟨(Decimal.ofParts? false 10 2).getD .zero, (Decimal.ofParts? false 0 1).getD .zero⟩]
    asks := [] }

theorem decode_text_of_decode_sample :
    (⟨1700000000, 5⟩ : Time.Timestamp).IsValid ∧
      decode ⟨1700000000, 5⟩ sampleText = .ok sampleEvent ∧
      ∃ e', decode ⟨1700000001, 0⟩ sampleEvent.text = .ok e' ∧ e' = sampleEvent ∧
        e'.text = sampleEvent.text := by
  have hreceived : (⟨1700000000, 5⟩ : Time.Timestamp).IsValid := by decide
  have hdecode : decode ⟨1700000000, 5⟩ sampleText = .ok sampleEvent := by decide +kernel
  exact ⟨hreceived, hdecode, decode_text_of_decode hreceived hdecode _⟩

end Event

end LiveBook
