import NetWorth.Proofs.Market.StoredRates

/-! # A market store is its log of writes

Observations are offered one by one or in batches, and one of an unknown kind ends its batch. Whatever was
offered, in whichever order, a store finds the last observation that it accepted for a question, and its
listings show one observation for each date and kind, in the order in which these were first written. -/
namespace NetWorth

theorem PriceKind.ofWord_word (kind : PriceKind) : ofWord kind.word = .ok kind := by
  cases kind <;> rfl

theorem PriceKind.word_injective {kind other : PriceKind} (h : kind.word = other.word) : kind = other :=
  Except.ok.inj ((ofWord_word kind).symm.trans ((congrArg ofWord h).trans (ofWord_word other)))

/-- The place of an observation among those of its asset or pair. -/
structure Slot where
  date : Date
  kind : String
deriving DecidableEq, Repr

namespace PriceObservation

def isKnown (price : PriceObservation) : Bool :=
  [PriceKind.close, .adjustedClose, .quote].any fun kind => kind.word = price.kind

def slot (price : PriceObservation) : Slot := ⟨price.date, price.kind⟩

def kindOf (price : PriceObservation) : PriceKind := (PriceKind.ofWord price.kind).toOption.getD .close

def entry (price : PriceObservation) : (AssetId × Date × PriceKind) × PriceObservation :=
  ((price.assetId, price.date, price.kindOf), price)

theorem isKnown_iff {price : PriceObservation} :
    price.isKnown = true ↔ ∃ kind : PriceKind, price.kind = kind.word := by
  simp only [isKnown, List.any_cons, List.any_nil, Bool.or_false, Bool.or_eq_true, decide_eq_true_eq]
  constructor
  · rintro (h | h | h)
    · exact ⟨_, h.symm⟩
    · exact ⟨_, h.symm⟩
    · exact ⟨_, h.symm⟩
  · rintro ⟨kind, h⟩
    cases kind with
    | close => exact .inl h.symm
    | adjustedClose => exact .inr (.inl h.symm)
    | quote => exact .inr (.inr h.symm)

theorem kindOf_eq_iff {price : PriceObservation} (h : price.isKnown = true) {kind : PriceKind} :
    price.kindOf = kind ↔ price.kind = kind.word := by
  obtain ⟨own, hown⟩ := isKnown_iff.1 h
  have hkind : price.kindOf = own := by
    rw [kindOf, hown, PriceKind.ofWord_word]
    rfl
  rw [hkind, hown]
  exact ⟨fun heq => heq ▸ rfl, PriceKind.word_injective⟩

theorem ofWord_of_known {price : PriceObservation} (h : price.isKnown = true) :
    PriceKind.ofWord price.kind = .ok price.kindOf := by
  rw [(kindOf_eq_iff h).1 rfl, PriceKind.ofWord_word]

theorem ofWord_of_unknown {price : PriceObservation} (h : price.isKnown = false) :
    PriceKind.ofWord price.kind = .error (.unknownWord price.kind .priceKind) := by
  cases hword : PriceKind.ofWord price.kind with
  | ok kind =>
    have hknown := isKnown_iff.2 ⟨kind, PriceKind.word_of_ofWord hword⟩
    rw [h] at hknown
    contradiction
  | error failure =>
    unfold PriceKind.ofWord at hword
    split_ifs at hword
    exact hword.symm

end PriceObservation

namespace RateObservation

def isKnown (rate : RateObservation) : Bool := rate.kind = RateKind.close.word

def slot (rate : RateObservation) : Slot := ⟨rate.date, rate.kind⟩

/-- Its currencies are those asked for, but for blanks around the codes and the case of their letters. -/
def isBetween (base quote : String) (rate : RateObservation) : Bool :=
  Currency.storeKey rate.base = Currency.storeKey base && Currency.storeKey rate.quote = Currency.storeKey quote

def entry (rate : RateObservation) : (String × String × Date × RateKind) × RateObservation :=
  ((Currency.storeKey rate.base, Currency.storeKey rate.quote, rate.date, .close), MarketStore.normalRate rate)

theorem entry_key (rate : RateObservation) : rate.entry.1 =
    (Currency.storeKey rate.base, Currency.storeKey rate.quote, rate.date, .close) := rfl

theorem entry_value (rate : RateObservation) : rate.entry.2 = MarketStore.normalRate rate := rfl

end RateObservation

/-- What a store is asked to take in. -/
inductive Write where
  | price (price : PriceObservation)
  | prices (batch : List PriceObservation)
  | rate (rate : RateObservation)
  | rates (batch : List RateObservation)

namespace Write

def offeredPrices : Write → List PriceObservation
  | .price offered => [offered]
  | .prices batch => batch
  | .rate _ | .rates _ => []

def offeredRates : Write → List RateObservation
  | .rate offered => [offered]
  | .rates batch => batch
  | .price _ | .prices _ => []

/-- The prices before the first one of an unknown kind. -/
def acceptedPrices (write : Write) : List PriceObservation := write.offeredPrices.takeWhile (·.isKnown)

/-- The rates before the first one of an unknown kind. -/
def acceptedRates (write : Write) : List RateObservation := write.offeredRates.takeWhile (·.isKnown)

/-- What a write is refused for: its first observation of an unknown kind. -/
def refusal? (write : Write) : Option Failure :=
  ((write.offeredPrices.find? (!·.isKnown)).map fun price => .unknownWord price.kind .priceKind).or
    ((write.offeredRates.find? (!·.isKnown)).map fun rate => .unknownWord rate.kind .rateKind)

end Write

namespace MarketStore

def answer : Option Failure → Except Failure Unit
  | none => .ok ()
  | some failure => .error failure

/-- A store and the answer after one observation was put into it. -/
def afterOne (store : MarketStore) (result : Except Failure MarketStore) :
    MarketStore × Except Failure Unit :=
  (result.toOption.getD store, result.map fun _ => ())

def write (store : MarketStore) : Write → MarketStore × Except Failure Unit
  | .price price => store.afterOne (store.putPrice price)
  | .prices batch => store.putPrices batch
  | .rate rate => store.afterOne (store.putRate rate)
  | .rates batch => store.putRates batch

/-- The store after writes into an empty one. -/
def written (writes : List Write) : MarketStore :=
  writes.foldl (fun store write => (store.write write).1) .empty

/-- A batch is taken in up to the first element that is refused. -/
theorem putAll_eq {α : Type} {put : MarketStore → α → Except Failure MarketStore} {known : α → Bool}
    {next : MarketStore → α → MarketStore} {refusal : α → Failure}
    (hknown : ∀ store a, known a = true → put store a = .ok (next store a))
    (hunknown : ∀ store a, known a = false → put store a = .error (refusal a)) (store : MarketStore)
    (batch : List α) : putAll put store batch = ((batch.takeWhile known).foldl next store,
      answer ((batch.find? (!known ·)).map refusal)) := by
  induction batch generalizing store with
  | nil => rfl
  | cons a rest ih =>
    rw [putAll]
    cases ha : known a with
    | true => simp [hknown store a ha, ih, ha]
    | false => simp [hunknown store a ha, ha, answer]

theorem afterOne_eq {α : Type} (put : MarketStore → α → Except Failure MarketStore) (store : MarketStore)
    (a : α) : store.afterOne (put store a) = putAll put store [a] := by
  rw [putAll]
  cases put store a <;> rfl

def withPrice (store : MarketStore) (price : PriceObservation) : MarketStore :=
  { store with prices := Keyed.put price.entry.1 price.entry.2 store.prices }

def withRate (store : MarketStore) (rate : RateObservation) : MarketStore :=
  { store with rates := Keyed.put rate.entry.1 rate.entry.2 store.rates }

theorem putPrice_of_known (store : MarketStore) (price : PriceObservation) (h : price.isKnown = true) :
    store.putPrice price = .ok (store.withPrice price) := by
  rw [putPrice, price.ofWord_of_known h]
  rfl

theorem putPrice_of_unknown (store : MarketStore) (price : PriceObservation) (h : price.isKnown = false) :
    store.putPrice price = .error (.unknownWord price.kind .priceKind) := by
  rw [putPrice, price.ofWord_of_unknown h]
  rfl

theorem putRate_of_known (store : MarketStore) (rate : RateObservation) (h : rate.isKnown = true) :
    store.putRate rate = .ok (store.withRate rate) := by
  refine (store.put_close_rate (of_decide_eq_true h)).trans ?_
  simp only [withRate, RateObservation.entry, normalRate_base, normalRate_quote, normalRate_date]

theorem putRate_of_unknown (store : MarketStore) (rate : RateObservation) (h : rate.isKnown = false) :
    store.putRate rate = .error (.unknownWord rate.kind .rateKind) := by
  rw [putRate, RateKind.ofWord_of_ne (of_decide_eq_false h)]
  rfl

/-- A write takes in what it accepts and answers with what it is refused for. -/
theorem write_eq (store : MarketStore) (write : Write) :
    store.write write = (write.acceptedRates.foldl withRate (write.acceptedPrices.foldl withPrice store),
      answer write.refusal?) := by
  have hprices : ∀ batch, store.putPrices batch = _ := putAll_eq putPrice_of_known putPrice_of_unknown store
  have hrates : ∀ batch, store.putRates batch = _ := putAll_eq putRate_of_known putRate_of_unknown store
  unfold Write.refusal? Write.acceptedPrices Write.acceptedRates
  cases write with
  | price price =>
    refine (afterOne_eq putPrice store price).trans ((hprices [price]).trans ?_)
    simp [Write.offeredPrices, Write.offeredRates]
  | prices batch =>
    refine (hprices batch).trans ?_
    simp [Write.offeredPrices, Write.offeredRates]
  | rate rate =>
    refine (afterOne_eq putRate store rate).trans ((hrates [rate]).trans ?_)
    simp [Write.offeredPrices, Write.offeredRates]
  | rates batch =>
    refine (hrates batch).trans ?_
    simp [Write.offeredPrices, Write.offeredRates]

/-- The prices that a run of writes accepts, in their order. -/
def priceLog (writes : List Write) : List PriceObservation := writes.flatMap (·.acceptedPrices)

def rateLog (writes : List Write) : List RateObservation := writes.flatMap (·.acceptedRates)

theorem isKnown_of_mem_priceLog {writes : List Write} {price : PriceObservation}
    (h : price ∈ priceLog writes) : price.isKnown = true := by
  obtain ⟨write, -, hprice⟩ := List.mem_flatMap.1 h
  exact List.mem_takeWhile_imp hprice

theorem isKnown_of_mem_rateLog {writes : List Write} {rate : RateObservation}
    (h : rate ∈ rateLog writes) : rate.isKnown = true := by
  obtain ⟨write, -, hrate⟩ := List.mem_flatMap.1 h
  exact List.mem_takeWhile_imp hrate

theorem foldl_withPrice (log : List PriceObservation) (store : MarketStore) :
    log.foldl withPrice store =
      { store with
        prices := (log.map PriceObservation.entry).foldl (fun m e => Keyed.put e.1 e.2 m) store.prices } := by
  induction log generalizing store with
  | nil => rfl
  | cons price log ih => rw [List.foldl_cons, ih, List.map_cons, List.foldl_cons, withPrice]

theorem foldl_withRate (log : List RateObservation) (store : MarketStore) :
    log.foldl withRate store =
      { store with
        rates := (log.map RateObservation.entry).foldl (fun m e => Keyed.put e.1 e.2 m) store.rates } := by
  induction log generalizing store with
  | nil => rfl
  | cons rate log ih => rw [List.foldl_cons, ih, List.map_cons, List.foldl_cons, withRate]

/-- What a store holds are the entries of what it accepted. -/
theorem written_eq (writes : List Write) :
    written writes = ⟨Keyed.ofList ((priceLog writes).map PriceObservation.entry),
      Keyed.ofList ((rateLog writes).map RateObservation.entry)⟩ := by
  induction writes using List.reverseRecOn with
  | nil => rfl
  | append_singleton writes write ih =>
    have hstep : written (writes ++ [write]) = ((written writes).write write).1 := by
      rw [written, List.foldl_append]
      rfl
    rw [hstep, write_eq, ih, foldl_withPrice, foldl_withRate]
    simp only [priceLog, rateLog, Keyed.ofList, List.flatMap_append, List.flatMap_singleton, List.map_append,
      List.foldl_append]

/-- A store finds and lists prices as a log of accepted prices says. -/
structure ReflectsPrices (log : List PriceObservation) (store : MarketStore) : Prop where
  found : ∀ id date kind, store.price? id date kind =
    (log.filter fun p => p.assetId = id ∧ p.date = date ∧ p.kind = kind.word).getLast?
  slots : ∀ id, (store.pricesOf id).map (·.slot) =
    ((log.filter (·.assetId = id)).map (·.slot)).eraseDups
  listed : ∀ id, ∀ p ∈ store.pricesOf id, ∃ kind : PriceKind, p.kind = kind.word ∧
    store.price? id p.date kind = some p

/-- A store finds and lists rates as a log of accepted rates says, with their codes as it keeps them. -/
structure ReflectsRates (log : List RateObservation) (store : MarketStore) : Prop where
  found : ∀ base quote date kind, store.rate? base quote date kind =
    ((log.filter fun r => r.isBetween base quote ∧ r.date = date ∧ r.kind = kind.word).getLast?).map normalRate
  slots : ∀ base quote, (store.ratesOf base quote).map (·.slot) =
    ((log.filter (·.isBetween base quote)).map (·.slot)).eraseDups
  listed : ∀ base quote, ∀ r ∈ store.ratesOf base quote, r.base = Currency.storeKey base ∧
    r.quote = Currency.storeKey quote ∧ ∃ kind : RateKind, r.kind = kind.word ∧
      store.rate? base quote r.date kind = some r

theorem reflectsPrices_of_entries {log : List PriceObservation} {store : MarketStore}
    (hknown : ∀ p ∈ log, p.isKnown = true)
    (hstore : store.prices = Keyed.ofList (log.map PriceObservation.entry)) : store.ReflectsPrices log := by
  have hkind : ∀ p ∈ log, p.kind = p.kindOf.word := fun p hp => (p.kindOf_eq_iff (hknown p hp)).1 rfl
  refine ⟨fun id date kind => ?_, fun id => ?_, fun id p hp => ?_⟩
  · have hquestion : ∀ p ∈ log, decide (p.entry.1 = (id, date, kind)) =
        decide (p.assetId = id ∧ p.date = date ∧ p.kind = kind.word) := by
      intro p hp
      simp [PriceObservation.entry, p.kindOf_eq_iff (hknown p hp)]
    rw [price?, hstore, Keyed.get?_ofList_map, List.filter_congr hquestion]
    exact Option.map_id_apply
  · rw [pricesOf, hstore]
    refine Keyed.labels_filter_ofList PriceObservation.entry (fun key => decide (key.1 = id))
      (fun p => decide (p.assetId = id)) PriceObservation.slot (fun key => ⟨key.2.1, key.2.2.word⟩)
      PriceObservation.slot (fun _ _ => rfl) (fun _ _ => rfl) (fun p hp => ?_) ?_
    · exact congrArg (Slot.mk p.date) (hkind p hp).symm
    · intro a b ha hb hab
      obtain ⟨hdate, hword⟩ := Slot.mk.inj hab
      refine Prod.ext ((of_decide_eq_true ha).trans (of_decide_eq_true hb).symm) (Prod.ext hdate ?_)
      exact PriceKind.word_injective hword
  · obtain ⟨e, he, rfl⟩ := List.mem_map.1 hp
    obtain ⟨hmem, hid⟩ := List.mem_filter.1 he
    obtain rfl : e.1.1 = id := of_decide_eq_true hid
    rw [hstore] at hmem
    obtain ⟨p, hlog, rfl⟩ := List.mem_map.1 (Keyed.mem_of_mem_ofList hmem)
    refine ⟨p.kindOf, hkind p hlog, ?_⟩
    rw [price?, hstore]
    exact (Keyed.mem_iff_get? (Keyed.nodup_keys_ofList _)).1 hmem

theorem reflectsRates_of_entries {log : List RateObservation} {store : MarketStore}
    (hknown : ∀ r ∈ log, r.isKnown = true)
    (hstore : store.rates = Keyed.ofList (log.map RateObservation.entry)) : store.ReflectsRates log := by
  have hkind : ∀ r ∈ log, r.kind = RateKind.close.word := fun r hr => of_decide_eq_true (hknown r hr)
  have hslot : ∀ r : RateObservation, r.entry.2.slot = r.slot := by
    intro r
    rw [RateObservation.entry_value, RateObservation.slot, normalRate_date, normalRate_kind, RateObservation.slot]
  refine ⟨fun base quote date kind => ?_, fun base quote => ?_, fun base quote r hr => ?_⟩
  · have hquestion : ∀ r ∈ log,
        decide (r.entry.1 = (Currency.storeKey base, Currency.storeKey quote, date, kind)) =
          decide (r.isBetween base quote ∧ r.date = date ∧ r.kind = kind.word) := by
      intro r hr
      cases kind
      simp [RateObservation.entry_key, RateObservation.isBetween, hkind r hr, and_assoc]
    rw [rate?, hstore, Keyed.get?_ofList_map, List.filter_congr hquestion]
    simp only [RateObservation.entry_value]
  · rw [ratesOf, hstore]
    refine Keyed.labels_filter_ofList RateObservation.entry
      (fun key => decide (key.1 = Currency.storeKey base) && decide (key.2.1 = Currency.storeKey quote))
      (RateObservation.isBetween base quote) RateObservation.slot (fun key => ⟨key.2.2.1, key.2.2.2.word⟩)
      RateObservation.slot (fun r _ => ?_) (fun r _ => hslot r) (fun r hr => ?_) ?_
    · rw [RateObservation.entry_key, RateObservation.isBetween]
    · rw [RateObservation.entry_key, RateObservation.slot, hkind r hr]
    · intro a b ha hb hab
      simp only [Bool.and_eq_true, decide_eq_true_eq] at ha hb
      exact Prod.ext (ha.1.trans hb.1.symm)
        (Prod.ext (ha.2.trans hb.2.symm) (Prod.ext (Slot.mk.inj hab).1 rfl))
  · obtain ⟨e, he, rfl⟩ := List.mem_map.1 hr
    obtain ⟨hmem, hpair⟩ := List.mem_filter.1 he
    simp only [Bool.and_eq_true, decide_eq_true_eq] at hpair
    rw [hstore] at hmem
    obtain ⟨r, hlog, rfl⟩ := List.mem_map.1 (Keyed.mem_of_mem_ofList hmem)
    have hfound := (Keyed.mem_iff_get? (Keyed.nodup_keys_ofList _)).1 hmem
    rw [RateObservation.entry_key] at hpair
    rw [RateObservation.entry_value, normalRate_base, normalRate_quote, normalRate_date, normalRate_kind]
    refine ⟨hpair.1, hpair.2, .close, hkind r hlog, ?_⟩
    rw [rate?, hstore, ← hpair.1, ← hpair.2]
    exact hfound

/-- After any run of writes into an empty store, each answer is due to the observations that the run accepted:
of those for a question the last one is found, a listing has one observation for each date and kind in the order
of first writing, and that one is what is found there. A write answers with the first observation of an unknown
kind, if it has one. -/
theorem reads_are_last_writes (writes : List Write) :
    (∀ write, ((written writes).write write).2 = answer write.refusal?) ∧
      (written writes).ReflectsPrices (priceLog writes) ∧ (written writes).ReflectsRates (rateLog writes) := by
  refine ⟨fun write => by rw [write_eq], ?_, ?_⟩
  · refine reflectsPrices_of_entries (fun p hp => isKnown_of_mem_priceLog hp) ?_
    rw [written_eq]
  · refine reflectsRates_of_entries (fun r hr => isKnown_of_mem_rateLog hr) ?_
    rw [written_eq]

end MarketStore

end NetWorth
