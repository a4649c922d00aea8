import Mathlib.Data.List.Induction
import Mathlib.Data.List.Perm.Lattice
import Mathlib.Data.List.Nodup
import NetWorth.Keyed
import NetWorth.Proofs.Outcome

/-! # Gathering under keys

Walking over elements and updating the entry of each element's key leaves, under every key, what the
elements of that key alone would leave. The keys are distinct, so the entries divide the elements up. -/
namespace NetWorth

namespace Keyed

variable {κ α β ε : Type} [DecidableEq κ]

theorem nodup_keys_put (key : κ) (value : α) {m : Keyed κ α} (h : (keys m).Nodup) :
    (keys (put key value m)).Nodup := by
  rw [keys_put]
  split
  · exact h
  · rename_i hnew
    exact h.append (List.nodup_singleton key) (by simpa using hnew)

theorem mem_keys_put {key other : κ} {value : α} {m : Keyed κ α} :
    other ∈ keys (put key value m) ↔ other = key ∨ other ∈ keys m := by
  rw [keys_put]
  split
  · rename_i hold
    refine ⟨.inr, ?_⟩
    rintro (rfl | hmem)
    · exact hold
    · exact hmem
  · simp [or_comm]

theorem mem_iff_get? {m : Keyed κ α} (h : (keys m).Nodup) {key : κ} {value : α} :
    (key, value) ∈ m ↔ get? key m = some value := by
  refine ⟨fun hmem => ?_, mem_of_get?⟩
  induction m with
  | nil => simp at hmem
  | cons entry rest ih =>
    obtain ⟨k, a⟩ := entry
    simp only [keys, List.map_cons, List.nodup_cons] at h
    rw [get?_cons]
    rcases List.mem_cons.1 hmem with heq | hmem
    · obtain ⟨rfl, rfl⟩ := Prod.mk.inj heq
      rw [if_pos rfl]
    · have hne : k ≠ key := by
        rintro rfl
        exact h.1 (List.mem_map_of_mem hmem)
      rw [if_neg hne]
      exact ih h.2 hmem

omit [DecidableEq κ] in
theorem eq_singleton_of_keys {m : Keyed κ α} (hnodup : (keys m).Nodup) {key : κ}
    (h : ∀ k, k ∈ keys m ↔ k = key) : ∃ value, m = [(key, value)] := by
  match m, hnodup, h with
  | [], _, h => exact absurd ((h key).2 rfl) (by simp [keys])
  | [(k, a)], _, h =>
    obtain rfl := (h k).1 (by simp [keys])
    exact ⟨a, rfl⟩
  | (k, a) :: (k', b) :: rest, hnodup, h =>
    have hk := (h k).1 (by simp [keys])
    have hk' := (h k').1 (by simp [keys])
    simp [keys, hk, hk'] at hnodup

theorem get?_isSome_iff {key : κ} {m : Keyed κ α} : (get? key m).isSome ↔ key ∈ keys m := by
  rw [← not_iff_not, ← get?_eq_none]
  simp

theorem mem_of_mem_put {key : κ} {value : α} {m : Keyed κ α} {entry : κ × α}
    (h : entry ∈ put key value m) : entry = (key, value) ∨ entry ∈ m := by
  induction m with
  | nil => simpa [put] using h
  | cons e rest ih =>
    obtain ⟨k, a⟩ := e
    rw [put] at h
    split at h
    · rename_i hk
      rcases List.mem_cons.1 h with rfl | hrest
      · exact .inl (by rw [hk])
      · exact .inr (List.mem_cons_of_mem _ hrest)
    · rcases List.mem_cons.1 h with rfl | hrest
      · exact .inr List.mem_cons_self
      · exact (ih hrest).imp_right (List.mem_cons_of_mem _)

theorem mem_of_mem_ofList {entries : List (κ × α)} {entry : κ × α} (h : entry ∈ ofList entries) :
    entry ∈ entries := by
  suffices hfold : ∀ m : Keyed κ α, entry ∈ entries.foldl (fun m e => put e.1 e.2 m) m →
      entry ∈ m ∨ entry ∈ entries by
    simpa using hfold [] h
  clear h
  induction entries with
  | nil => simp
  | cons e rest ih =>
    intro m hm
    rcases ih _ hm with hput | hrest
    · exact (mem_of_mem_put hput).elim (fun heq => .inr (by simp [heq])) .inl
    · exact .inr (List.mem_cons_of_mem _ hrest)

/-- Where every key stands once, a choice of entries is a choice at each key. -/
theorem get?_filter {m : Keyed κ α} (h : (keys m).Nodup) (p : κ × α → Bool) (key : κ) :
    get? key (m.filter p) = (get? key m).filter fun value => p (key, value) := by
  induction m with
  | nil => rfl
  | cons entry rest ih =>
    obtain ⟨k, a⟩ := entry
    obtain ⟨hnew, hrest⟩ := List.nodup_cons.1 h
    rw [get?_cons, List.filter_cons]
    by_cases hk : k = key
    · subst hk
      have hnone : get? k rest = none := get?_eq_none.2 hnew
      cases hp : p (k, a) with
      | true => simp [get?_cons, Option.filter_some, hp]
      | false => simp [ih hrest, hnone, Option.filter_some, hp]
    · cases hp : p (k, a) with
      | true => simp [get?_cons, hk, ih hrest]
      | false => simp [hk, ih hrest]

omit [DecidableEq κ] in
/-- Sorting entries by a number of their keys that tells the keys apart puts the numbers in strictly
ascending order. -/
theorem pairwise_mergeSort_lt {m : Keyed κ α} (h : (keys m).Nodup) (number : κ → Int)
    (hnumber : ∀ a ∈ m, ∀ b ∈ m, number a.1 = number b.1 → a.1 = b.1) :
    (m.mergeSort fun a b => decide (number a.1 ≤ number b.1)).Pairwise fun a b =>
      number a.1 < number b.1 := by
  have hperm := List.mergeSort_perm m fun a b => decide (number a.1 ≤ number b.1)
  have hsorted : (m.mergeSort fun a b => decide (number a.1 ≤ number b.1)).Pairwise fun a b =>
      decide (number a.1 ≤ number b.1) = true := by
    refine List.pairwise_mergeSort ?_ ?_ m
    · intro a b c hab hbc
      simp only [decide_eq_true_eq] at *
      omega
    · intro a b
      simp only [Bool.or_eq_true, decide_eq_true_eq]
      omega
  have hdistinct := ((hperm.map Prod.fst).nodup_iff).2 h
  rw [List.nodup_iff_pairwise_ne, List.pairwise_map] at hdistinct
  refine (hsorted.and hdistinct).imp_of_mem fun {a b} ha hb hab => ?_
  have hne : number a.1 ≠ number b.1 := fun heq =>
    hab.2 (hnumber a (hperm.mem_iff.1 ha) b (hperm.mem_iff.1 hb) heq)
  have hle : number a.1 ≤ number b.1 := of_decide_eq_true hab.1
  omega

theorem put_of_notMem {key : κ} {value : α} {m : Keyed κ α} (h : key ∉ keys m) :
    put key value m = m ++ [(key, value)] := by
  induction m with
  | nil => rfl
  | cons e rest ih =>
    obtain ⟨k, a⟩ := e
    simp only [keys, List.map_cons, List.mem_cons, not_or] at h ih
    rw [put, if_neg (Ne.symm h.1), ih h.2, List.cons_append]

theorem put_eq_self {key : κ} {value : α} {m : Keyed κ α} (h : get? key m = some value) :
    put key value m = m := by
  induction m with
  | nil => simp at h
  | cons e rest ih =>
    obtain ⟨k, a⟩ := e
    rw [get?_cons] at h
    rw [put]
    by_cases hk : k = key
    · rw [if_pos hk] at h ⊢
      rw [Option.some.inj h]
    · rw [if_neg hk] at h ⊢
      rw [ih h]

theorem ofList_eq_self {entries : List (κ × α)} (h : (entries.map Prod.fst).Nodup) :
    ofList entries = entries := by
  induction entries using List.reverseRecOn with
  | nil => rfl
  | append_singleton entries e ih =>
    rw [List.map_append, List.nodup_append] at h
    have hnew : e.1 ∉ keys entries := fun hmem => h.2.2 e.1 hmem e.1 (by simp) rfl
    have hstep : ofList (entries ++ [e]) = put e.1 e.2 (ofList entries) := by
      rw [ofList, List.foldl_append]
      rfl
    rw [hstep, ih h.1, put_of_notMem hnew]

theorem get?_of_perm {m m' : Keyed κ α} (hperm : m'.Perm m) (h : (keys m).Nodup) (key : κ) :
    get? key m' = get? key m := by
  have h' : (keys m').Nodup := (hperm.map Prod.fst).nodup_iff.2 h
  refine Option.ext fun value => ?_
  rw [← mem_iff_get? h, ← mem_iff_get? h', hperm.mem_iff]

/-- What is looked up under distinct keys does not depend on the order in which it was listed. -/
theorem get?_ofList_of_perm {f : β → α} {xs xs' : List β} {name : β → κ} (hperm : xs'.Perm xs)
    (h : (xs.map name).Nodup) (key : κ) : get? key (ofList (xs'.map fun x => (name x, f x))) =
      get? key (ofList (xs.map fun x => (name x, f x))) := by
  have hkeys : ∀ ys : List β, (ys.map fun x => (name x, f x)).map Prod.fst = ys.map name := by
    intro ys
    rw [List.map_map]
    rfl
  have hnodup : ((xs.map fun x => (name x, f x)).map Prod.fst).Nodup := by rwa [hkeys]
  have hnodup' : ((xs'.map fun x => (name x, f x)).map Prod.fst).Nodup := by
    rwa [hkeys, (hperm.map name).nodup_iff]
  rw [ofList_eq_self hnodup, ofList_eq_self hnodup']
  exact get?_of_perm (hperm.map _) hnodup key

theorem get?_ofList_eq_some {xs : List α} {name : α → κ} (h : (xs.map name).Nodup) {key : κ} {value : α} :
    get? key (ofList (xs.map fun x => (name x, x))) = some value ↔ value ∈ xs ∧ name value = key := by
  have hkeys : (xs.map fun x => (name x, x)).map Prod.fst = xs.map name := by
    rw [List.map_map]
    rfl
  rw [ofList_eq_self (by rwa [hkeys]), ← mem_iff_get? (by rwa [keys, hkeys])]
  simp only [List.mem_map, Prod.mk.injEq]
  constructor
  · rintro ⟨x, hx, hname, rfl⟩
    exact ⟨hx, hname⟩
  · rintro ⟨hvalue, hname⟩
    exact ⟨value, hvalue, hname, rfl⟩

theorem keys_ofList (entries : List (κ × α)) {key : κ} :
    key ∈ keys (ofList entries) ↔ key ∈ entries.map Prod.fst := by
  unfold ofList
  suffices h : ∀ m : Keyed κ α, key ∈ keys (entries.foldl (fun m e => put e.1 e.2 m) m) ↔
      key ∈ keys m ∨ key ∈ entries.map Prod.fst by
    simpa [keys] using h []
  induction entries with
  | nil => simp
  | cons e rest ih =>
    intro m
    rw [List.foldl_cons, ih, mem_keys_put, List.map_cons, List.mem_cons]
    tauto

/-- Replaces the entry of a key by what it leads to. -/
def alter (key : κ) (f : Option α → α) (m : Keyed κ α) : Keyed κ α := put key (f (get? key m)) m

def alterM (key : κ) (f : Option α → Except ε α) (m : Keyed κ α) : Except ε (Keyed κ α) := do
  return put key (← f (get? key m)) m

theorem alterM_ok_iff {key : κ} {f : Option α → Except ε α} {m m' : Keyed κ α} :
    alterM key f m = .ok m' ↔ ∃ value, f (get? key m) = .ok value ∧ put key value m = m' := by
  simp [alterM]

variable {key : β → κ}

theorem get?_foldl_alter {f : β → Option α → α} (bs : List β) (m : Keyed κ α) (k : κ) :
    get? k (bs.foldl (fun m b => alter (key b) (f b) m) m) =
      (bs.filter (key · = k)).foldl (fun entry b => some (f b entry)) (get? k m) := by
  induction bs generalizing m with
  | nil => rfl
  | cons b bs ih =>
    rw [List.foldl_cons, ih, alter, get?_put, List.filter_cons]
    by_cases hk : key b = k
    · simp [hk]
    · simp [hk]

theorem keys_foldl_alter (key : β → κ) (f : β → Option α → α) (bs : List β) {m : Keyed κ α}
    (h : (keys m).Nodup) :
    (keys (bs.foldl (fun m b => alter (key b) (f b) m) m)).Nodup ∧
      ∀ k, k ∈ keys (bs.foldl (fun m b => alter (key b) (f b) m) m) ↔ k ∈ keys m ∨ k ∈ bs.map key := by
  induction bs generalizing m with
  | nil => simp [h]
  | cons b bs ih =>
    obtain ⟨hnodup, hmem⟩ := ih (nodup_keys_put (key b) (f b (get? (key b) m)) h)
    refine ⟨hnodup, fun k => ?_⟩
    rw [List.foldl_cons, alter, hmem, mem_keys_put, List.map_cons, List.mem_cons]
    tauto

/-- What stands under a key is due to the elements of that key, in their order. -/
theorem get?_foldlM_alterM {f : β → Option α → Except ε α} {bs : List β} {m m' : Keyed κ α}
    (h : bs.foldlM (fun m b => alterM (key b) (f b) m) m = .ok m') (k : κ) :
    (bs.filter (key · = k)).foldlM (fun entry b => (f b entry).map some) (get? k m) =
      .ok (get? k m') := by
  induction bs generalizing m with
  | nil =>
    rw [Outcome.foldlM_nil_ok_iff] at h
    subst h
    rfl
  | cons b bs ih =>
    obtain ⟨next, hnext, hrest⟩ := Outcome.foldlM_cons_ok_iff.1 h
    obtain ⟨value, hvalue, rfl⟩ := alterM_ok_iff.1 hnext
    have hk := ih hrest
    rw [get?_put] at hk
    rw [List.filter_cons]
    by_cases hkey : key b = k
    · rw [if_pos hkey] at hk
      rw [if_pos (by simpa using hkey), Outcome.foldlM_cons_ok_iff]
      refine ⟨some value, ?_, hk⟩
      rw [← hkey, hvalue]
      rfl
    · rw [if_neg hkey] at hk
      rw [if_neg (by simpa using hkey)]
      exact hk

theorem keys_foldlM_alterM {f : β → Option α → Except ε α} {bs : List β} {m m' : Keyed κ α}
    (h : bs.foldlM (fun m b => alterM (key b) (f b) m) m = .ok m') (hm : (keys m).Nodup) :
    (keys m').Nodup ∧ ∀ k, k ∈ keys m' ↔ k ∈ keys m ∨ k ∈ bs.map key := by
  induction bs generalizing m with
  | nil =>
    rw [Outcome.foldlM_nil_ok_iff] at h
    subst h
    simp [hm]
  | cons b bs ih =>
    obtain ⟨next, hnext, hrest⟩ := Outcome.foldlM_cons_ok_iff.1 h
    obtain ⟨value, hvalue, rfl⟩ := alterM_ok_iff.1 hnext
    obtain ⟨hnodup, hmem⟩ := ih hrest (nodup_keys_put (key b) value hm)
    refine ⟨hnodup, fun k => ?_⟩
    rw [hmem, mem_keys_put, List.map_cons, List.mem_cons]
    tauto

theorem eraseDups_concat (ks : List κ) (k : κ) :
    (ks ++ [k]).eraseDups = if k ∈ ks then ks.eraseDups else ks.eraseDups ++ [k] := by
  rw [List.eraseDups_append, List.removeAll, List.filter_singleton]
  by_cases hk : k ∈ ks
  · simp [hk]
  · simp [hk, List.eraseDups_cons]

/-- The keys stand in the order in which they are first met. -/
theorem keys_eq_of_foldlM_alterM {f : β → Option α → Except ε α} {bs : List β} {m : Keyed κ α}
    (h : bs.foldlM (fun m b => alterM (key b) (f b) m) [] = .ok m) : keys m = (bs.map key).eraseDups := by
  induction bs using List.reverseRecOn generalizing m with
  | nil =>
    obtain rfl := Outcome.foldlM_nil_ok_iff.1 h
    rfl
  | append_singleton bs b ih =>
    rw [List.foldlM_append, Outcome.andThen_ok_iff] at h
    obtain ⟨before, hbefore, hlast⟩ := h
    obtain ⟨next, hnext, hend⟩ := Outcome.foldlM_cons_ok_iff.1 hlast
    obtain rfl := Outcome.foldlM_nil_ok_iff.1 hend
    obtain ⟨value, -, rfl⟩ := alterM_ok_iff.1 hnext
    have hkeys := ih hbefore
    simp only [keys_put, List.map_append, List.map_singleton, eraseDups_concat, hkeys, List.mem_eraseDups]

theorem ofList_concat (entries : List (κ × α)) (entry : κ × α) :
    ofList (entries ++ [entry]) = put entry.1 entry.2 (ofList entries) := by
  rw [ofList, List.foldl_append]
  rfl

theorem get?_ofList (entries : List (κ × α)) (key : κ) :
    get? key (ofList entries) = ((entries.filter (·.1 = key)).getLast?).map Prod.snd := by
  induction entries using List.reverseRecOn with
  | nil => rfl
  | append_singleton entries entry ih =>
    rw [ofList_concat, get?_put, List.filter_append]
    by_cases hkey : entry.1 = key
    · simp [hkey]
    · simp [hkey, ih]

theorem keys_ofList_eq (entries : List (κ × α)) :
    keys (ofList entries) = (entries.map Prod.fst).eraseDups := by
  induction entries using List.reverseRecOn with
  | nil => rfl
  | append_singleton entries entry ih =>
    have hmem : entry.1 ∈ keys (ofList entries) ↔ entry.1 ∈ entries.map Prod.fst := keys_ofList entries
    rw [ofList_concat, keys_put, List.map_append, List.map_singleton, eraseDups_concat, ← ih]
    simp only [hmem]

theorem nodup_keys_ofList (entries : List (κ × α)) : (keys (ofList entries)).Nodup := by
  induction entries using List.reverseRecOn with
  | nil => exact List.nodup_nil
  | append_singleton entries entry ih =>
    rw [ofList_concat]
    exact nodup_keys_put entry.1 entry.2 ih

/-- Putting an entry among those of some keys puts it there if its key is one of them. -/
theorem filter_put (p : κ → Bool) (key : κ) (value : α) (m : Keyed κ α) :
    (put key value m).filter (fun e => p e.1) =
      if p key then put key value (m.filter fun e => p e.1) else m.filter fun e => p e.1 := by
  induction m with
  | nil => cases hp : p key <;> simp [put, hp]
  | cons e rest ih =>
    obtain ⟨k, a⟩ := e
    rw [put]
    by_cases hk : k = key
    · subst hk
      cases hp : p k <;> simp [hp, put]
    · rw [if_neg hk, List.filter_cons, ih]
      cases hp : p key <;> cases hpk : p k <;> simp [hpk, put, hk]

/-- The entries of some keys are what those entries alone would leave. -/
theorem filter_ofList (p : κ → Bool) (entries : List (κ × α)) :
    (ofList entries).filter (fun e => p e.1) = ofList (entries.filter fun e => p e.1) := by
  induction entries using List.reverseRecOn with
  | nil => rfl
  | append_singleton entries entry ih =>
    rw [ofList_concat, filter_put, ih, List.filter_append]
    cases hp : p entry.1 with
    | true => simp [hp, ofList_concat]
    | false => simp [hp]

theorem eraseDups_map {ν : Type} [DecidableEq ν] {name : κ → ν} {ks : List κ}
    (h : ∀ a ∈ ks, ∀ b ∈ ks, name a = name b → a = b) :
    (ks.map name).eraseDups = ks.eraseDups.map name := by
  induction ks using List.reverseRecOn with
  | nil => rfl
  | append_singleton ks k ih =>
    have hmem : name k ∈ ks.map name ↔ k ∈ ks := by
      refine ⟨fun hname => ?_, List.mem_map_of_mem⟩
      obtain ⟨other, hother, heq⟩ := List.mem_map.1 hname
      exact h other (by simp [hother]) k (by simp) heq ▸ hother
    rw [List.map_append, List.map_singleton, eraseDups_concat, eraseDups_concat,
      ih fun a ha b hb => h a (by simp [ha]) b (by simp [hb])]
    simp only [hmem]
    split <;> simp

theorem get?_ofList_map (entry : β → κ × α) (log : List β) (key : κ) :
    get? key (ofList (log.map entry)) =
      ((log.filter fun b => (entry b).1 = key).getLast?).map fun b => (entry b).2 := by
  rw [get?_ofList, List.filter_map, List.getLast?_map, Option.map_map]
  rfl

/-- What is listed under some keys, which are told apart by their labels, has each label once, in the order in
which these were first entered. -/
theorem labels_filter_ofList {ν : Type} [DecidableEq ν] (entry : β → κ × α) {log : List β} (p : κ → Bool)
    (chosen : β → Bool) (name : α → ν) (slot : κ → ν) (label : β → ν)
    (hchosen : ∀ b ∈ log, p (entry b).1 = chosen b) (hname : ∀ b ∈ log, name (entry b).2 = label b)
    (hslot : ∀ b ∈ log, slot (entry b).1 = label b)
    (hdistinct : ∀ a b, p a = true → p b = true → slot a = slot b → a = b) :
    (((ofList (log.map entry)).filter fun e => p e.1).map Prod.snd).map name =
      ((log.filter chosen).map label).eraseDups := by
  have hentries : (log.map entry).filter (fun e => p e.1) = (log.filter chosen).map entry := by
    rw [List.filter_map]
    exact congrArg (List.map entry) (List.filter_congr hchosen)
  have hkeys : ∀ key ∈ ((log.filter chosen).map entry).map Prod.fst, p key = true := by
    intro key hkey
    obtain ⟨e, he, rfl⟩ := List.mem_map.1 hkey
    rw [← hentries] at he
    exact (List.mem_filter.1 he).2
  have hlabels : ∀ e ∈ (log.filter chosen).map entry, name e.2 = slot e.1 := by
    intro e he
    obtain ⟨b, hb, rfl⟩ := List.mem_map.1 he
    have hlog := List.mem_of_mem_filter hb
    exact (hname b hlog).trans (hslot b hlog).symm
  calc (((ofList (log.map entry)).filter fun e => p e.1).map Prod.snd).map name
      = (ofList ((log.filter chosen).map entry)).map fun e => name e.2 := by
        rw [filter_ofList, hentries, List.map_map]
        rfl
    _ = (keys (ofList ((log.filter chosen).map entry))).map slot := by
        rw [keys, List.map_map]
        exact List.map_congr_left fun e he => hlabels e (mem_of_mem_ofList he)
    _ = ((((log.filter chosen).map entry).map Prod.fst).map slot).eraseDups := by
        rw [keys_ofList_eq, eraseDups_map fun a ha b hb => hdistinct a b (hkeys a ha) (hkeys b hb)]
    _ = ((log.filter chosen).map label).eraseDups := by
        rw [List.map_map, List.map_map]
        exact congrArg List.eraseDups (List.map_congr_left fun b hb => hslot b (List.mem_of_mem_filter hb))

omit [DecidableEq κ] in
/-- Entries under the same keys in one order stand side by side. -/
theorem forall₂_of_keys_eq {m m' : Keyed κ α} (hkeys : keys m' = keys m) :
    List.Forall₂ (fun e e' => e'.1 = e.1 ∧ e ∈ m ∧ e' ∈ m') m m' := by
  induction m generalizing m' with
  | nil =>
    obtain rfl := List.map_eq_nil_iff.1 hkeys
    exact .nil
  | cons e rest ih =>
    cases m' with
    | nil => simp [keys] at hkeys
    | cons e' rest' =>
      simp only [keys, List.map_cons, List.cons.injEq] at hkeys ih
      refine .cons ⟨hkeys.1, List.mem_cons_self, List.mem_cons_self⟩ ((ih hkeys.2).imp ?_)
      rintro a a' ⟨hkey, ha, ha'⟩
      exact ⟨hkey, List.mem_cons_of_mem _ ha, List.mem_cons_of_mem _ ha'⟩

/-- Groups under distinct keys that cover all elements hold each element once. -/
theorem flatMap_filter_perm {ks : List κ} (hks : ks.Nodup) {bs : List β} (h : ∀ b ∈ bs, key b ∈ ks) :
    (ks.flatMap fun k => bs.filter (key · = k)).Perm bs := by
  induction bs with
  | nil => simp
  | cons b bs ih =>
    obtain ⟨before, after, rfl⟩ := List.append_of_mem (h b (by simp))
    have hfresh : ∀ k ∈ before ++ after, key b ≠ k := by
      rintro k hk rfl
      have hperm : (before ++ key b :: after).Perm (key b :: (before ++ after)) := List.perm_middle
      exact (List.nodup_cons.1 (hperm.nodup_iff.1 hks)).1 hk
    have hbefore : (before.flatMap fun k => (b :: bs).filter (key · = k)) =
        before.flatMap fun k => bs.filter (key · = k) := by
      refine List.flatMap_congr fun k hk => ?_
      simp [hfresh k (by simp [hk])]
    have hafter : (after.flatMap fun k => (b :: bs).filter (key · = k)) =
        after.flatMap fun k => bs.filter (key · = k) := by
      refine List.flatMap_congr fun k hk => ?_
      simp [hfresh k (by simp [hk])]
    have hrest := ih fun c hc => h c (by simp [hc])
    rw [List.flatMap_append, List.flatMap_cons] at hrest ⊢
    rw [hbefore, hafter, List.filter_cons, if_pos (by simp), List.cons_append]
    exact List.perm_middle.trans (hrest.cons b)

end Keyed

end NetWorth
