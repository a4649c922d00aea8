import NetWorth.Proofs.Api.Faithful

/-! # Bodies read back

What is written of a snapshot, a history or a list of changes reads back as the same body, although members
without a value are left out at every level. Only the bounds of the two reports are ever `null`. -/
namespace NetWorth.Body

theorem asset_faithful : Faithful asset Asset.toJson where
  reads a := by
    cases a with
    | currency code => rfl
    | equity ticker exchange => cases exchange <;> rfl
    | crypto symbol network => cases network <;> rfl
  nullFree a := by
    cases a with
    | currency code => rfl
    | equity ticker exchange => cases exchange <;> rfl
    | crypto symbol network => cases network <;> rfl

theorem trigger_faithful : Faithful triggerCheck trigger where
  reads t := by
    cases t with
    | price | rate => rfl
    | balance accountId a =>
      show Checked.under "balance" (balanceTriggerOf (trigger (.balance accountId a)).members) = _
      simp [balanceTriggerOf, trigger, Json.members, kindIs, Check.withDefault, Check.required,
        Keyed.get?_cons, asset_faithful.reads, Check.literal, Check.text]
  nullFree t := by
    cases t with
    | price | rate => rfl
    | balance accountId a => simp [trigger, Json.nullFree_object, asset_faithful.nullFree]

theorem holding_faithful : Faithful holdingCheck holding where
  reads row := by
    simp [holdingCheck, holdingOf, holding, Check.object, Check.required, Keyed.get?_cons, Check.text,
      Faithful.date.reads]
  nullFree _ := rfl

theorem assetLine_faithful : Faithful assetLineCheck (assetLine .omitted) := by
  refine faithful_fields (fun line => ⟨?_, ?_⟩) fun line h => ?_
  · simp [Keyed.keys]
  · simp [sound_optional Faithful.text, sound_optional Faithful.date, sound_optional holding_faithful.list,
      asset_faithful.nullFree, Faithful.date.nullFree]
  · rw [assetLineOf, h.required asset_faithful "asset" rfl, h.required Faithful.text "total_amount" rfl,
      h.required Faithful.date "amount_date" rfl, h.maybe Faithful.text "price" rfl,
      h.maybe Faithful.date "price_date" rfl, h.maybe Faithful.text "price_timestamp" rfl,
      h.maybe Faithful.text "fx_rate" rfl, h.maybe Faithful.date "fx_date" rfl,
      h.maybe Faithful.text "value_in_base" rfl, h.maybe holding_faithful.list "holdings" rfl]
    rfl

theorem accountLine_faithful : Faithful accountLineCheck (accountLine .omitted) := by
  refine faithful_fields (fun row => ⟨?_, ?_⟩) fun row h => ?_
  · simp [Keyed.keys]
  · simp [sound_optional Faithful.text]
  · rw [accountLineOf, h.required Faithful.text "account_id" rfl, h.required Faithful.text "account_name" rfl,
      h.required Faithful.text "connection_name" rfl, h.maybe Faithful.text "value_in_base" rfl]
    rfl

theorem snapshot_faithful : Faithful snapshotCheck (snapshot .omitted) := by
  refine faithful_fields (fun body => ⟨?_, ?_⟩) fun body h => ?_
  · simp [Keyed.keys]
  · simp [sound_optional assetLine_faithful.list, sound_optional accountLine_faithful.list,
      Faithful.date.nullFree]
  · rw [snapshotOf, h.required Faithful.date "as_of_date" rfl, h.required Faithful.text "currency" rfl,
      h.required Faithful.text "total_value" rfl, h.maybe assetLine_faithful.list "by_asset" rfl,
      h.maybe accountLine_faithful.list "by_account" rfl]
    rfl

theorem summary_faithful : Faithful summaryCheck summary := ⟨fun _ => rfl, fun _ => rfl⟩

theorem historyLine_faithful : Faithful historyLineCheck (historyLine .omitted) := by
  refine faithful_fields (fun line => ⟨?_, ?_⟩) fun line h => ?_
  · simp [Keyed.keys]
  · simp [sound_optional Faithful.text.list, Faithful.date.nullFree]
  · rw [historyLineOf, h.required Faithful.text "timestamp" rfl, h.required Faithful.date "date" rfl,
      h.required Faithful.text "total_value" rfl, h.maybe Faithful.text.list "change_triggers" rfl]
    rfl

theorem history_faithful : FaithfulBut bounds historyCheck (history .omitted) := by
  refine faithfulBut_fields (fun body => ⟨?_, ?_⟩) (fun body h => ?_) fun body => ?_
  · simp [Keyed.keys]
  · simp [sound_optional Faithful.date, sound_optional summary_faithful, historyLine_faithful.list.nullFree]
  · rw [historyOf, h.required Faithful.text "currency" rfl, h.maybe Faithful.date "start_date" rfl,
      h.maybe Faithful.date "end_date" rfl, h.required Faithful.text "granularity" rfl,
      h.withDefault historyLine_faithful.list "points" rfl, h.maybe summary_faithful "summary" rfl]
    rfl
  · simp [bounds, Keyed.keys]

theorem changeLine_faithful : Faithful changeLineCheck changeLine where
  reads line := by
    simp [changeLineCheck, changeLineOf, changeLine, Check.object, Check.required, Check.withDefault,
      Keyed.get?_cons, Check.text, trigger_faithful.list.reads]
  nullFree line := by
    simp [changeLine, Json.nullFree_object, trigger_faithful.list.nullFree]

theorem changes_faithful : FaithfulBut bounds changesCheck (changes .omitted) := by
  refine faithfulBut_fields (fun body => ⟨?_, ?_⟩) (fun body h => ?_) fun body => ?_
  · simp [Keyed.keys]
  · simp [sound_optional Faithful.date, changeLine_faithful.list.nullFree]
  · rw [changesOf, h.maybe Faithful.date "start_date" rfl, h.maybe Faithful.date "end_date" rfl,
      h.required Faithful.text "granularity" rfl, h.required Faithful.boolean "include_prices" rfl,
      h.withDefault changeLine_faithful.list "points" rfl]
    rfl
  · simp [bounds, Keyed.keys]

/-- Every body reads back from what is written of it, although members without a value are left out at
every level; only the bounds of the two reports are always there, and may be `null`. -/
theorem bodies_read_back :
    (∀ body : Snapshot, snapshotCheck (snapshot .omitted body) = .ok body ∧
      (snapshot .omitted body).nullFree = true) ∧
    (∀ body : History, historyCheck (history .omitted body) = .ok body ∧
      (history .omitted body).NullsUnder bounds) ∧
    ∀ body : Changes, changesCheck (changes .omitted body) = .ok body ∧
      (changes .omitted body).NullsUnder bounds :=
  ⟨fun body => ⟨snapshot_faithful.reads body, snapshot_faithful.nullFree body⟩,
    fun body => ⟨history_faithful.reads body, history_faithful.nulls body⟩,
    fun body => ⟨changes_faithful.reads body, changes_faithful.nulls body⟩⟩

end NetWorth.Body
