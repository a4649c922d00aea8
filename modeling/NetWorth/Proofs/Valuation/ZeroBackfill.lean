import NetWorth.Proofs.Asset.Letters
import NetWorth.Proofs.Valuation.InsertedZero

/-! # Filling in a zero

An account without a snapshot by the end of the date may count as a zero in the reporting currency instead
of being left out. The zero changes neither the total nor the row of another account. It gives the account a
row of its own and makes sure that the currency has one. -/
namespace NetWorth

/-- In a list without repeated names, what stands around an element has other names. -/
theorem ne_of_nodup_middle {α β : Type} {name : α → β} {before after : List α} {x : α}
    (h : ((before ++ x :: after).map name).Nodup) : ∀ y ∈ before ++ after, name y ≠ name x := by
  rw [List.map_append, List.map_cons, List.nodup_middle, List.nodup_cons, ← List.map_append] at h
  exact fun y hy heq => h.1 (heq ▸ List.mem_map_of_mem hy)

/-- The ledger with another policy for an account. -/
def Ledger.withBackfill (ledger : Ledger) (accountId : String) (policy : Backfill) : Ledger :=
  ledger.putOverrides accountId
    { (Keyed.get? accountId ledger.overrides).getD .default with backfill := policy.word }

theorem Backfill.ofWord_word (policy : Backfill) : ofWord policy.word = .ok policy := by
  cases policy <;> rfl

namespace Ledger

variable {ledger : Ledger} {id : String} {policy : Backfill}

theorem Recorded.withBackfill (h : ledger.Recorded) (id : String) (policy : Backfill) :
    (ledger.withBackfill id policy).Recorded :=
  .overrides id _ h

theorem policyOf_withBackfill : (ledger.withBackfill id policy).policyOf id = .ok policy := by
  simp [policyOf, withBackfill, putOverrides, Keyed.get?_put, Backfill.ofWord_word]

theorem excludes_withBackfill : (ledger.withBackfill id policy).excludes id = ledger.excludes id := by
  simp [excludes, withBackfill, putOverrides, Keyed.get?_put]

end Ledger

namespace Valuation

variable {ledger : Ledger} {account : Account} {id : String} {policy : Backfill}

theorem effectiveBalance_withBackfill (query : ValuationQuery) (hother : account.id ≠ id) :
    effectiveBalance (ledger.withBackfill id policy).reads query account =
      effectiveBalance ledger.reads query account := by
  have hoverrides : (ledger.withBackfill id policy).reads.overrides account.id =
      ledger.reads.overrides account.id := by
    simp [Ledger.reads, Ledger.withBackfill, Ledger.putOverrides, Keyed.get?_put, Ne.symm hother]
  rw [effectiveBalance, effectiveBalance, hoverrides]
  rfl

theorem effectiveBalance_of_policy (query : ValuationQuery) (hincluded : ledger.excludes account.id = false)
    (hpolicy : ledger.policyOf account.id = .ok policy) :
    (effectiveBalance ledger.reads query account).outcome =
      .ok (EffectiveBalance.choose account.id (ledger.snapshotsOf account.id) policy query.date
        query.currency) := by
  refine effectiveBalance_ok_iff.2 ⟨_, rfl, ?_⟩
  exact (if_neg (Bool.eq_false_iff.1 hincluded)).mpr ⟨_, policy, rfl, hpolicy, rfl⟩

end Valuation

namespace EffectiveBalance

theorem choose_uncovered {snapshots : List BalanceSnapshot} {date : Date}
    (h : BalanceSnapshot.takenBy snapshots date = []) (accountId currency : String) :
    choose accountId snapshots .none date currency = none ∧
      choose accountId snapshots .zero date currency = some (zero accountId date currency) := by
  simp [choose, h, BalanceSnapshot.latest]

end EffectiveBalance

def Portion.zero (accountId currency : String) (date : Date) : Portion :=
  ⟨.currency (Currency.normalize currency), accountId, .zero, date⟩

theorem Amount.read_zero (field : Option String) : read (.text "0") field = .ok .zero := by
  have hzero : Decimal.parse? "0" = some .zero := by decide +kernel
  simp only [read, hzero]

theorem Contribution.ofEffective_zero (accountId : String) (date : Date) (currency : String) :
    ∃ day, ofEffective (.zero accountId date currency) = .ok ⟨accountId, [.zero accountId currency day]⟩ := by
  refine ⟨date, ofEffective_ok_iff.2 ⟨date, _, ?_, ?_, rfl⟩⟩
  · have htimestamp : (EffectiveBalance.zero accountId date currency).timestamp = .endOfDay date := rfl
    rw [EffectiveBalance.date, htimestamp, Timestamp.utcDate?_endOfDay]
  · refine Outcome.mapM_ok_iff.2 (.cons ?_ .nil)
    exact Portion.ofBalance_ok_iff.2 ⟨.currency currency, .zero, rfl, Amount.read_zero _, rfl⟩

namespace Workings

variable {reads : LedgerReads} {market : MarketReads} {query : ValuationQuery} {valuation : Valuation}

def countedOf (reads : LedgerReads) (query : ValuationQuery) (accounts : List Account) :
    List EffectiveBalance :=
  accounts.filterMap fun a => (Valuation.effectiveBalance reads query a).outcome.toOption.bind id

theorem balances_eq_countedOf (w : Workings reads market query valuation) :
    w.balances = countedOf reads query w.accounts := by
  obtain ⟨chosen, hchosen, hbalances⟩ := Valuation.effectiveBalances_ok_iff.1 w.balances_eq
  rw [← hbalances, ← Outcome.filterMap_of_mapM hchosen, List.filterMap_filterMap, countedOf]

theorem countedOf_withBackfill {ledger : Ledger} {id : String} {policy : Backfill} {accounts : List Account}
    (hother : ∀ a ∈ accounts, a.id ≠ id) : countedOf (ledger.withBackfill id policy).reads query accounts =
      countedOf ledger.reads query accounts := by
  refine List.filterMap_congr fun a ha => ?_
  rw [Valuation.effectiveBalance_withBackfill query (hother a ha)]

theorem countedOf_middle {before after : List Account} {account : Account}
    {effective : Option EffectiveBalance}
    (h : (Valuation.effectiveBalance reads query account).outcome = .ok effective) :
    countedOf reads query (before ++ account :: after) =
      countedOf reads query before ++ (effective.toList ++ countedOf reads query after) := by
  rw [countedOf, List.filterMap_append, List.filterMap_cons, h]
  cases effective <;> rfl

def portionsOf (balances : List EffectiveBalance) : List Portion :=
  (balances.filterMap fun e => (Contribution.ofEffective e).toOption).flatMap (·.portions)

/-- A balance that joins others brings its portions in between theirs. -/
theorem portions_split (w : Workings reads market query valuation) {before after : List EffectiveBalance}
    {effective : EffectiveBalance} {contribution : Contribution}
    (hread : Contribution.ofEffective effective = .ok contribution) :
    (w.balances = before ++ after → w.portions = portionsOf before ++ portionsOf after) ∧
      (w.balances = before ++ effective :: after →
        w.portions = portionsOf before ++ (contribution.portions ++ portionsOf after)) := by
  have hportions : w.portions = portionsOf w.balances := by
    rw [portionsOf, Outcome.filterMap_of_mapM w.contributions_eq, portions]
  rw [hportions]
  constructor
  · rintro h
    rw [h, portionsOf, List.filterMap_append, List.flatMap_append]
    rfl
  · rintro h
    rw [h, portionsOf, List.filterMap_append, List.filterMap_cons, hread, List.flatMap_append]
    rfl

end Workings

namespace Valuation

/-- Amounts of at most 28 digits, with exponents that are not extreme. -/
def AmountsShort (ledger : LedgerReads) (query : ValuationQuery) : Prop :=
  ∀ selected, contributions ledger query = .ok selected → ∀ p ∈ selected.flatMap (·.portions),
    Text.digitCount p.amount.coefficient ≤ 28 ∧ -1000 ≤ p.amount.exponent ∧ p.amount.exponent ≤ 1000

theorem AmountsShort.held {ledger : LedgerReads} {market : MarketReads} {query : ValuationQuery}
    {valuation : Valuation} (h : AmountsShort ledger query) (w : Workings ledger market query valuation) :
    ∀ p ∈ w.portions, p.amount.Held := by
  intro p hp
  obtain ⟨hdigits, hleast, hgreatest⟩ := h _ w.contributions_of p hp
  refine ⟨⟨?_, ?_⟩, hdigits⟩
  · simp only [Decimal.leastQuantum]
    omega
  · simp only [Decimal.magnitude, Decimal.greatestExponent]
    omega

end Valuation

/-- An account that takes part but has no snapshot by the end of the date and is left out for that. -/
structure Ledger.LeavesOut (ledger : Ledger) (date : Date) (account : Account) : Prop where
  listed : account ∈ Keyed.values ledger.accounts
  included : ledger.excludes account.id = false
  policy : ledger.policyOf account.id = .ok .none
  uncovered : BalanceSnapshot.takenBy (ledger.snapshotsOf account.id) date = []

namespace Workings

variable {ledger : Ledger} {market : MarketReads} {query : ValuationQuery} {account : Account}
  {valuation valuation' : Valuation} (w : Workings ledger.reads market query valuation)
  (w' : Workings (ledger.withBackfill account.id .zero).reads market query valuation')

theorem same_accounts : w'.accounts = w.accounts :=
  Except.ok.inj (w'.accounts_eq.symm.trans w.accounts_eq)

theorem same_connections : w'.connections = w.connections :=
  Except.ok.inj (w'.connections_eq.symm.trans w.connections_eq)

theorem balances_zero (hrecorded : ledger.Recorded) (hleft : ledger.LeavesOut query.date account) :
    ∃ before after, w.balances = before ++ after ∧
      w'.balances = before ++ .zero account.id query.date query.currency :: after := by
  obtain ⟨hnone, hzero⟩ := EffectiveBalance.choose_uncovered hleft.uncovered account.id query.currency
  have hbalance : (Valuation.effectiveBalance ledger.reads query account).outcome = .ok none :=
    hnone ▸ Valuation.effectiveBalance_of_policy query hleft.included hleft.policy
  have hincluded : (ledger.withBackfill account.id .zero).excludes account.id = false :=
    Ledger.excludes_withBackfill.trans hleft.included
  have hbalance' : (Valuation.effectiveBalance (ledger.withBackfill account.id .zero).reads query
      account).outcome = .ok (some (.zero account.id query.date query.currency)) :=
    hzero ▸ Valuation.effectiveBalance_of_policy query hincluded Ledger.policyOf_withBackfill
  obtain ⟨before, after, hsplit⟩ := List.append_of_mem (w.accounts_values ▸ hleft.listed)
  have hother := ne_of_nodup_middle (hsplit ▸ w.nodup_accounts hrecorded)
  rw [w'.balances_eq_countedOf, w.balances_eq_countedOf, same_accounts w w', hsplit,
    countedOf_middle hbalance, countedOf_middle hbalance',
    countedOf_withBackfill fun a ha => hother a (List.mem_append_left _ ha),
    countedOf_withBackfill fun a ha => hother a (List.mem_append_right _ ha)]
  exact ⟨_, _, rfl, rfl⟩

theorem mem_balances_zero (hrecorded : ledger.Recorded) (hleft : ledger.LeavesOut query.date account)
    {effective : EffectiveBalance} : effective ∈ w'.balances ↔
      effective = .zero account.id query.date query.currency ∨ effective ∈ w.balances := by
  obtain ⟨before, after, hbalances, hbalances'⟩ := balances_zero w w' hrecorded hleft
  rw [hbalances, hbalances']
  simp [or_left_comm]

theorem foreign_balances (hrecorded : ledger.Recorded) (hleft : ledger.LeavesOut query.date account) :
    ∀ effective ∈ w.balances, effective.accountId ≠ account.id := by
  intro effective he hid
  obtain ⟨owner, hcontributes⟩ := w.mem_balances.1 he
  obtain rfl := hrecorded.account_eq hcontributes.listed hleft.listed (hcontributes.accountId.symm.trans hid)
  obtain ⟨policy, hpolicy, hchoose⟩ := hcontributes.counted
  obtain rfl := Except.ok.inj (hleft.policy.symm.trans hpolicy)
  rw [(EffectiveBalance.choose_uncovered hleft.uncovered _ _).1] at hchoose
  contradiction

/-- The zero joins the portions. Nothing but the currency itself has the identity of a currency of letters. -/
theorem withZero (hrecorded : ledger.Recorded) (hleft : ledger.LeavesOut query.date account)
    (hletters : Text.isAlphabetic (Currency.normalize query.currency) = true)
    (hshort : Valuation.AmountsShort ledger.reads query) :
    ∃ day, WithZero (.zero account.id query.currency day) w.portions w'.portions := by
  obtain ⟨day, hread⟩ := Contribution.ofEffective_zero account.id query.date query.currency
  obtain ⟨before, after, hbalances, hbalances'⟩ := balances_zero w w' hrecorded hleft
  have hsplit := (w.portions_split hread).1 hbalances
  have hsplit' := (w'.portions_split hread).2 hbalances'
  have hmem : ∀ p ∈ w'.portions, p = .zero account.id query.currency day ∨ p ∈ w.portions := by
    rw [hsplit, hsplit']
    intro p hp
    simpa [or_left_comm] using hp
  refine ⟨day, ⟨_, _, hsplit, hsplit'⟩, Decimal.toRat_zero, fun p hp => ?_, fun p hp hid => ?_⟩
  · rcases hmem p hp with rfl | hold
    · exact Decimal.zero_held
    · exact hshort.held w p hold
  · obtain ⟨effective, -, b, -, asset, -, hasset⟩ := Contribution.source_of_portion w'.contributions_eq hp
    have hcurrency : AssetId.ofAsset asset = AssetId.ofAsset (.currency query.currency) := by
      have hnormal : Portion.id (.zero account.id query.currency day) =
          AssetId.ofAsset (Asset.currency query.currency).normalize := rfl
      rw [← AssetId.ofAsset_normalize asset, ← hasset, ← AssetId.ofAsset_normalize (.currency _), ← hnormal]
      exact hid
    rw [hasset, Asset.eq_currency_of_letters hletters hcurrency]
    rfl

section Zero

variable {w w'} {day : Date} (h : WithZero (.zero account.id query.currency day) w.portions w'.portions)

include h

/-- The reporting currency is worth one of itself, whatever is merged with the zero. -/
theorem resolved_zero : Keyed.get? (Portion.zero account.id query.currency day).id w'.resolved =
    some ⟨some (.finite ⟨false, 1, 0⟩), none, none⟩ := by
  have hmem : Portion.zero account.id query.currency day ∈ w'.portions := h.mem_iff.2 (.inl rfl)
  obtain ⟨aggregate, hget⟩ := w'.aggregate_of_portion hmem
  obtain ⟨first, hfirst, hasset⟩ := Aggregate.first_of_gather w'.aggregates_eq hget
  obtain ⟨resolution, hfound, hresolve⟩ := Valuation.get?_resolutions w'.resolved_eq hget
  have hform : first.asset = .currency (Currency.normalize query.currency) :=
    h.form first (List.mem_of_find?_eq_some hfirst) (by simpa using List.find?_some hfirst)
  have hsame : Currency.same (Currency.normalize query.currency) query.currency = true := by
    rw [Currency.same_normalize]
    exact Currency.same_refl _
  rw [hasset, hform, MarketReads.resolve_target hsame] at hresolve
  rw [hfound, Except.ok.inj hresolve]

/-- The reporting currency has a row with a value. -/
theorem exists_currency_row : ∃ row ∈ w'.rows.map Prod.fst,
    row.asset = .currency (Currency.normalize query.currency) ∧ row.value.isSome := by
  obtain ⟨row, hrow, hid, hvalue⟩ := exists_row_of_resolved (resolved_zero h)
  obtain ⟨p, hp, -, hasset, -⟩ := w'.row_origin hrow
  refine ⟨row.1, List.mem_map_of_mem hrow, ?_, hvalue⟩
  rw [hasset] at hid ⊢
  exact h.form p hp hid

theorem ofBalances_zero {connection : Connection} {row : AccountRow}
    (hrow : AccountRow.ofBalances w'.resolved account connection query.places
      (EffectiveBalance.zero account.id query.date query.currency).balances = .ok row) :
    row = ⟨account.id, account.name, connection.name, some "0"⟩ := by
  obtain ⟨values, total, hvalues, htotal, hvalue, hshown⟩ :=
    AccountRow.sum_of_ofBalances account.id day hrow
  have hread : Portion.ofBalance account.id day ⟨.known (.currency query.currency), .text "0"⟩ =
      .ok (.zero account.id query.currency day) :=
    Portion.ofBalance_ok_iff.2 ⟨.currency query.currency, .zero, rfl, Amount.read_zero _, rfl⟩
  have hworth : AccountRow.valued w'.resolved account.id day ⟨.known (.currency query.currency), .text "0"⟩ =
      .ok (some (.finite .zero)) := by
    have hfound := AssetRow.resolutionOf_ok_iff.2 (resolved_zero h)
    simp only [AccountRow.valued, hread, bind, Except.bind, hfound]
    rfl
  obtain rfl : values = [some (.finite .zero)] := by
    cases Outcome.mapM_ok_iff.1 hvalues with
    | cons hone hnil =>
      cases hnil
      rw [Except.ok.inj (hone.symm.trans hworth)]
  obtain rfl : total = .finite .zero := (Except.ok.inj htotal).symm
  obtain ⟨text, htext, hvalue⟩ := Outcome.map_ok_iff.1 hvalue
  rw [hshown, ← hvalue, Amount.format_of_zero Decimal.toRat_zero htext]

theorem drawn_zero {effective : EffectiveBalance} (he : effective ∈ w.balances) :
    w'.drawn effective = w.drawn effective := by
  rw [drawn, drawn, ofEffective_withZero h he, same_accounts w w', same_connections w w']

theorem mem_accountRows_iff (hrecorded : ledger.Recorded) (hleft : ledger.LeavesOut query.date account)
    {rows rows' : List AccountRow} (hrows : w.Draws rows) (hrows' : w'.Draws rows') {row : AccountRow} :
    row ∈ rows ↔ row ∈ rows' ∧ row.accountId ≠ account.id := by
  rw [hrows.mem_iff, hrows'.mem_iff]
  constructor
  · rintro ⟨effective, he, hrow⟩
    have hid := accountId_of_drawn hrecorded hrow
    rw [← drawn_zero h he] at hrow
    have hbalance := (mem_balances_zero w w' hrecorded hleft).2 (.inr he)
    exact ⟨⟨effective, hbalance, hrow⟩, hid ▸ foreign_balances w hrecorded hleft effective he⟩
  · rintro ⟨⟨effective, he, hrow⟩, hid⟩
    rcases (mem_balances_zero w w' hrecorded hleft).1 he with rfl | he
    · exact absurd (accountId_of_drawn (hrecorded.withBackfill account.id .zero) hrow) hid
    · rw [drawn_zero h he] at hrow
      exact ⟨effective, he, hrow⟩

/-- The rows of other accounts are what they were, in the order that they had. -/
theorem accountRows_zero (hrecorded : ledger.Recorded) (hleft : ledger.LeavesOut query.date account)
    {rows rows' : List AccountRow} (hrows : w.Draws rows) (hrows' : w'.Draws rows') :
    rows = rows'.filter fun r => r.accountId ≠ account.id := by
  have hnodup := nodup_accountRows hrecorded hrows
  have hnodup' := nodup_accountRows (hrecorded.withBackfill account.id .zero) hrows'
  have hperm : rows.Perm (rows'.filter fun r => r.accountId ≠ account.id) := by
    rw [List.perm_ext_iff_of_nodup hnodup.of_map (hnodup'.of_map.filter _)]
    intro row
    simpa using mem_accountRows_iff h hrecorded hleft hrows hrows'
  have hascends := AccountRow.breakdown_ascends hrows hnodup
  have hascends' := (AccountRow.breakdown_ascends hrows' hnodup').filter fun r => r.accountId ≠ account.id
  exact hperm.eq_of_pairwise (fun _ _ _ _ hab hba => (AccountRow.Before.asymm hab hba).elim) hascends
    hascends'

theorem mem_accountRows_zero (hrecorded : ledger.Recorded) (hleft : ledger.LeavesOut query.date account)
    {rows' : List AccountRow} (hrows' : w'.Draws rows') {connection : Connection}
    (hknown : connection ∈ Keyed.values ledger.connections)
    (hconnected : connection.id = account.connectionId) :
    ⟨account.id, account.name, connection.name, some "0"⟩ ∈ rows' := by
  have hchosen := (EffectiveBalance.choose_uncovered hleft.uncovered account.id query.currency).2
  have hcontributes : (ledger.withBackfill account.id .zero).Contributes query account
      (.zero account.id query.date query.currency) :=
    ⟨hleft.listed, Ledger.excludes_withBackfill.trans hleft.included, .zero, Ledger.policyOf_withBackfill,
      hchosen⟩
  obtain ⟨row, hrow, hbalances⟩ := exists_accountRow (hrecorded.withBackfill account.id .zero) hrows'
    ⟨hcontributes, hknown, hconnected⟩
  exact ofBalances_zero h hbalances ▸ hrow

end Zero

end Workings

namespace Valuation

variable {ledger : Ledger} {market : MarketReads} {query : ValuationQuery} {account : Account}
  {valuation valuation' : Valuation}

/-- What a valuation shows once a zero is filled in for an account. -/
structure ZeroFilledIn (ledger : Ledger) (query : ValuationQuery) (account : Account)
    (valuation valuation' : Valuation) : Prop where
  total : valuation'.totalValue = valuation.totalValue
  others : valuation.byAccount =
    valuation'.byAccount.map fun rows => rows.filter fun r => r.accountId ≠ account.id
  own : ∀ rows, valuation'.byAccount = some rows → ∀ connection ∈ Keyed.values ledger.connections,
    connection.id = account.connectionId → ⟨account.id, account.name, connection.name, some "0"⟩ ∈ rows
  currency : ∀ rows, valuation'.byAsset = some rows → ∃ row ∈ rows,
    row.asset = .currency (Currency.normalize query.currency) ∧ row.value.isSome

/-- Filling in a zero for an account that is left out changes neither the total nor another row. The
account gets a row with a zero if its connection is known, and the reporting currency has a valued row. -/
theorem zero_backfill_is_neutral (hrecorded : ledger.Recorded) (hleft : ledger.LeavesOut query.date account)
    (hletters : Text.isAlphabetic (Currency.normalize query.currency) = true)
    (hshort : AmountsShort ledger.reads query)
    (hrun : (run ledger.reads market query).outcome = .ok valuation)
    (hrun' : (run (ledger.withBackfill account.id .zero).reads market query).outcome = .ok valuation') :
    ZeroFilledIn ledger query account valuation valuation' := by
  obtain ⟨w⟩ := nonempty_workings hrun
  obtain ⟨w'⟩ := nonempty_workings hrun'
  obtain ⟨day, hzero⟩ := w.withZero w' hrecorded hleft hletters hshort
  have hgrouping : w'.grouping = w.grouping := Except.ok.inj (w'.grouping_eq.symm.trans w.grouping_eq)
  have hrows := w.byAccount_eq
  have hrows' := w'.byAccount_eq
  rw [hgrouping] at hrows'
  refine ⟨Workings.totalValue_withZero hzero, ?_, ?_, ?_⟩
  · split at hrows <;> rename_i hincluded
    · rw [if_pos hincluded] at hrows'
      obtain ⟨rows, hdrawn, hshown⟩ := hrows
      obtain ⟨rows', hdrawn', hshown'⟩ := hrows'
      rw [hshown, hshown', Option.map_some, Workings.accountRows_zero hzero hrecorded hleft hdrawn hdrawn']
    · rw [if_neg hincluded] at hrows'
      rw [hrows, hrows']
      rfl
  · intro rows hshown connection hknown hconnected
    have hdrawn' : w'.Draws rows := Workings.draws_of_byAccount hshown
    exact Workings.mem_accountRows_zero hzero hrecorded hleft hdrawn' hknown hconnected
  · intro rows hshown
    have hassets := w'.byAsset_eq
    rw [hshown] at hassets
    split at hassets
    · rw [Option.some.inj hassets]
      exact Workings.exists_currency_row hzero
    · contradiction

open Collection (shareStore shareQuery tradingDay)

def jar : Account := ⟨"jar", "Jar", "bank", [], true⟩

def jarLedger : Ledger :=
  (((Ledger.empty.putConnection ⟨"bank", "Bank", "manual"⟩).putAccount
    ⟨"purse", "Purse", "bank", [], true⟩).addSnapshot "purse"
      (.at (.endOfDay tradingDay) [⟨.known (.currency "usd"), .text "5.50"⟩])).putAccount jar

theorem jarLedger_recorded : jarLedger.Recorded :=
  .account _ (.snapshot "purse" (.endOfDay tradingDay) _ (.account _ (.connection _ .empty)))

theorem jar_leftOut : jarLedger.LeavesOut tradingDay jar :=
  ⟨by decide, by decide, by decide, rfl⟩

theorem jar_amountsShort : AmountsShort jarLedger.reads shareQuery := by
  have hcontributions : contributions jarLedger.reads shareQuery =
      .ok [⟨"purse", [⟨.currency "USD", "purse", ⟨false, 550, -2⟩, tradingDay⟩]⟩] :=
    Outcome.ok_of_toOption (by decide +kernel)
  intro selected hselected
  obtain rfl := Except.ok.inj (hcontributions.symm.trans hselected)
  decide +kernel

/-- The jar counts as a zero, and the purse is worth what it was. -/
theorem jar_filled_in : jarLedger.Recorded ∧ jarLedger.LeavesOut shareQuery.date jar ∧
    Text.isAlphabetic (Currency.normalize shareQuery.currency) = true ∧
    AmountsShort jarLedger.reads shareQuery ∧
    ∃ valuation valuation', (run jarLedger.reads shareStore.reads shareQuery).outcome = .ok valuation ∧
      (run (jarLedger.withBackfill jar.id .zero).reads shareStore.reads shareQuery).outcome =
        .ok valuation' ∧
      ZeroFilledIn jarLedger shareQuery jar valuation valuation' := by
  have hletters : Text.isAlphabetic (Currency.normalize shareQuery.currency) = true := by decide +kernel
  have hsome : (run jarLedger.reads shareStore.reads shareQuery).outcome.toOption.isSome = true ∧
      (run (jarLedger.withBackfill jar.id .zero).reads shareStore.reads
        shareQuery).outcome.toOption.isSome = true := by
    decide +kernel
  obtain ⟨valuation, hvaluation⟩ := Option.isSome_iff_exists.1 hsome.1
  obtain ⟨valuation', hvaluation'⟩ := Option.isSome_iff_exists.1 hsome.2
  have hrun := Outcome.ok_of_toOption hvaluation
  have hrun' := Outcome.ok_of_toOption hvaluation'
  exact ⟨jarLedger_recorded, jar_leftOut, hletters, jar_amountsShort, valuation, valuation', hrun, hrun',
    zero_backfill_is_neutral jarLedger_recorded jar_leftOut hletters jar_amountsShort hrun hrun'⟩

end Valuation

end NetWorth
