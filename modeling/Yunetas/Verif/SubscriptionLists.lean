import Mathlib.Data.List.Induction
import Yunetas.Gobj.Subscriptions
import Yunetas.Lib.Run

/-!
# Adding and removing subscriptions

In every run each subscription is in the list of its publisher exactly when it is in that of its
subscriber, since a deletion takes the first match out of both and both hold the subscriptions of a
pair in the same order. Whether the right one is added or removed is another matter: one matcher
serves to search, where what is missing matches anything, and to identify, where a stored
subscription no longer has the system keys of its `__config__`. Steps where the two readings agree
add and remove exactly what they name.
-/

namespace Yunetas.Gobj

open List Function Bool

open Json

/-! ## The first match of a list -/

section FirstMatch

variable {α : Type}

theorem filter_eraseP_of_imp {p q : α → Bool} (kind : ∀ item, p item = true → q item = true)
    (items : List α) : (items.eraseP p).filter q = (items.filter q).eraseP p := by
  induction items with
  | nil => rfl
  | cons item rest ih =>
    by_cases here : p item = true
    · rw [eraseP_cons_of_pos here, filter_cons_of_pos (kind item here), eraseP_cons_of_pos here]
    · rw [eraseP_cons_of_neg here]
      by_cases isKind : q item = true
      · rw [filter_cons_of_pos isKind, filter_cons_of_pos isKind, eraseP_cons_of_neg here, ih]
      · rw [filter_cons_of_neg isKind, filter_cons_of_neg isKind, ih]

theorem filter_eraseP_of_not {p q : α → Bool} (other : ∀ item, p item = true → q item = false)
    (items : List α) : (items.eraseP p).filter q = items.filter q := by
  induction items with
  | nil => rfl
  | cons item rest ih =>
    by_cases here : p item = true
    · rw [eraseP_cons_of_pos here,
        filter_cons_of_neg (by rw [other item here]; exact false_ne_true)]
    · rw [eraseP_cons_of_neg here, filter_cons, filter_cons, ih]

theorem eraseP_eq_filter {p : α → Bool} {mark : α → Nat} {items : List α} {found : α}
    (first : items.find? p = some found) (once : (items.map mark).Nodup) :
    items.eraseP p = items.filter fun item => mark item ≠ mark found := by
  induction items with
  | nil => cases first
  | cons item rest ih =>
    rw [map_cons, nodup_cons] at once
    by_cases here : p item = true
    · rw [find?_cons_of_pos here] at first
      rw [← Option.some.inj first]
      have others : ∀ other ∈ rest, decide (mark other ≠ mark item) = true := by
        intro other among
        rw [decide_eq_true_eq]
        exact fun same => once.1 (same ▸ mem_map_of_mem among)
      rw [eraseP_cons_of_pos here, filter_cons_of_neg (by simp), filter_eq_self.2 others]
    · rw [find?_cons_of_neg here] at first
      have apart : mark item ≠ mark found := fun same =>
        once.1 (same ▸ mem_map_of_mem (mem_of_find?_eq_some first))
      rw [eraseP_cons_of_neg here, filter_cons_of_pos (by simpa using apart), ih first once.2]

end FirstMatch

/-! ## What holds in every run -/

/-- A call on the lists. -/
inductive Call where
  /-- `gobj_subscribe_event`, with whether the publisher accepts the subscription. -/
  | subscribe (publisher : Nat) (event : String) (kw : Fields) (subscriber : Nat) (accepted : Bool)
  /-- `gobj_unsubscribe_event`. -/
  | unsubscribe (publisher : Nat) (event : String) (kw : Fields) (subscriber : Nat)
  /-- `gobj_unsubscribe_list`. -/
  | unsubscribeList (dlSubs : List Subs) (force : Bool)

/-- The lists after a call. -/
def stepCall (json : JsonEqual) (classes : Classes) (lists : Lists) : Call → Lists
  | .subscribe publisher event kw subscriber accepted =>
    gobjSubscribeEvent json classes lists publisher event kw subscriber accepted
  | .unsubscribe publisher event kw subscriber =>
    gobjUnsubscribeEvent json classes lists publisher event kw subscriber
  | .unsubscribeList dlSubs force => gobjUnsubscribeList json lists dlSubs force

/-- No subscription. -/
def noLists : Lists := ⟨fun _ => [], fun _ => [], 1⟩

/-- The event of a call passes the check of output events. -/
def Classes.allows (classes : Classes) (publisher : Nat) (event : String) : Bool :=
  event = "" || classes.hasOutputEvent publisher event

theorem Classes.check_eq (classes : Classes) (publisher : Nat) (event : String) :
    (decide (event ≠ "") && !classes.hasOutputEvent publisher event) =
      !classes.allows publisher event := by
  unfold Classes.allows
  rw [Bool.not_or, decide_not]

/-- Each subscription is in the lists of its publisher and of its subscriber, in the same order in
both, and has an address of its own. -/
structure Kept (classes : Classes) (lists : Lists) : Prop where
  publisher : ∀ publisher, ∀ subs ∈ lists.subscriptions publisher,
    subs.record.publisher = publisher
  subscriber : ∀ subscriber, ∀ subs ∈ lists.subscribings subscriber,
    subs.record.subscriber = subscriber
  paired : ∀ publisher subscriber,
    ((lists.subscriptions publisher).filter fun subs => subs.record.subscriber = subscriber) =
      (lists.subscribings subscriber).filter fun subs => subs.record.publisher = publisher
  used : ∀ publisher, ∀ subs ∈ lists.subscriptions publisher, subs.address < lists.next
  once : ∀ publisher, ((lists.subscriptions publisher).map Subs.address).Nodup
  apart : ∀ left right, ∀ subs ∈ lists.subscriptions left,
    ∀ other ∈ lists.subscriptions right, subs.address = other.address → left = right
  allowed : ∀ publisher, ∀ subs ∈ lists.subscriptions publisher,
    classes.allows publisher subs.record.event = true

section Kept

variable {json : JsonEqual} {classes : Classes} {lists : Lists}

theorem Subs.pattern_pair {subs other : Subs} (found : subs.pattern json other = true) :
    other.record.publisher = subs.record.publisher ∧
      other.record.subscriber = subs.record.subscriber := by
  unfold Subs.pattern matchSubscription at found
  simp only [and_eq_true, decide_eq_true_eq] at found
  exact ⟨found.1.1.1.1.1.1.symm, found.1.1.1.1.1.2.symm⟩

theorem Kept.eq_of_address (kept : Kept classes lists) {left right : Nat} {subs other : Subs}
    (here : subs ∈ lists.subscriptions left) (there : other ∈ lists.subscriptions right)
    (same : subs.address = other.address) : subs = other := by
  have one := kept.apart left right subs here other there same
  rw [← one] at there
  exact inj_on_of_nodup_map (kept.once left) here there same

theorem Kept.delete (kept : Kept classes lists) (subs : Subs) (force : Bool) :
    Kept classes (deleteSubscription json lists subs force) := by
  unfold deleteSubscription
  split
  · exact kept
  have fewer (publisher : Nat) : ∀ other, other ∈ Function.update lists.subscriptions
      subs.record.publisher ((lists.subscriptions subs.record.publisher).eraseP
        (subs.pattern json)) publisher → other ∈ lists.subscriptions publisher := by
    intro other among
    by_cases here : publisher = subs.record.publisher
    · subst here
      rw [update_self] at among
      exact mem_of_mem_eraseP among
    · rwa [update_of_ne here] at among
  constructor
  · exact fun publisher other among => kept.publisher publisher other (fewer publisher other among)
  · intro subscriber other among
    dsimp only at among
    by_cases here : subscriber = subs.record.subscriber
    · subst here
      rw [update_self] at among
      exact kept.subscriber _ other (mem_of_mem_eraseP among)
    · rw [update_of_ne here] at among
      exact kept.subscriber subscriber other among
  · intro publisher subscriber
    dsimp only
    have pair := kept.paired publisher subscriber
    by_cases samePublisher : publisher = subs.record.publisher
    · subst samePublisher
      rw [update_self]
      by_cases sameSubscriber : subscriber = subs.record.subscriber
      · subst sameSubscriber
        rw [update_self, filter_eraseP_of_imp fun other found => by
            rw [decide_eq_true_eq]
            exact (Subs.pattern_pair found).2,
          filter_eraseP_of_imp fun other found => by
            rw [decide_eq_true_eq]
            exact (Subs.pattern_pair found).1, pair]
      · rw [update_of_ne sameSubscriber, filter_eraseP_of_not, pair]
        intro other found
        rw [decide_eq_false_iff_not, (Subs.pattern_pair found).2]
        exact fun same => sameSubscriber same.symm
    · rw [update_of_ne samePublisher, pair]
      by_cases sameSubscriber : subscriber = subs.record.subscriber
      · subst sameSubscriber
        rw [update_self, filter_eraseP_of_not]
        intro other found
        rw [decide_eq_false_iff_not, (Subs.pattern_pair found).1]
        exact fun same => samePublisher same.symm
      · rw [update_of_ne sameSubscriber]
  · exact fun publisher other among => kept.used publisher other (fewer publisher other among)
  · intro publisher
    dsimp only
    by_cases here : publisher = subs.record.publisher
    · subst here
      rw [update_self]
      exact (kept.once _).sublist (eraseP_sublist.map _)
    · rw [update_of_ne here]
      exact kept.once publisher
  · exact fun left right subs here other there same =>
      kept.apart left right subs (fewer left subs here) other (fewer right other there) same
  · exact fun publisher other among => kept.allowed publisher other (fewer publisher other among)

theorem Kept.deleteAll (kept : Kept classes lists) (dlSubs : List Subs) (force : Bool) :
    Kept classes (gobjUnsubscribeList json lists dlSubs force) := by
  induction dlSubs generalizing lists with
  | nil => exact kept
  | cons subs rest ih => exact ih (kept.delete subs force)

theorem Kept.append (kept : Kept classes lists) {subs : Subs} (new : subs.address = lists.next)
    (allowed : classes.allows subs.record.publisher subs.record.event = true) :
    Kept classes (appendSubs lists subs) := by
  have either (publisher : Nat) : ∀ other ∈ (appendSubs lists subs).subscriptions publisher,
      other ∈ lists.subscriptions publisher ∨ other = subs ∧ publisher = subs.record.publisher := by
    intro other among
    unfold appendSubs at among
    dsimp only at among
    by_cases here : publisher = subs.record.publisher
    · rw [here, update_self, mem_append, mem_singleton] at among
      exact among.imp (fun old => here ▸ old) fun last => ⟨last, here⟩
    · rw [update_of_ne here] at among
      exact Or.inl among
  constructor
  · intro publisher other among
    rcases either publisher other among with old | ⟨last, own⟩
    · exact kept.publisher publisher other old
    · rw [last, own]
  · intro subscriber other among
    unfold appendSubs at among
    dsimp only at among
    by_cases here : subscriber = subs.record.subscriber
    · rw [here, update_self, mem_append, mem_singleton] at among
      rcases among with old | last
      · exact (kept.subscriber _ other old).trans here.symm
      · rw [last, here]
    · rw [update_of_ne here] at among
      exact kept.subscriber subscriber other among
  · intro publisher subscriber
    unfold appendSubs
    dsimp only
    have pair := kept.paired publisher subscriber
    by_cases samePublisher : publisher = subs.record.publisher
    · by_cases sameSubscriber : subscriber = subs.record.subscriber
      · rw [samePublisher, sameSubscriber] at pair ⊢
        rw [update_self, update_self, filter_append, filter_append, pair]
        simp
      · rw [samePublisher] at pair ⊢
        rw [update_self, update_of_ne sameSubscriber, filter_append, pair]
        simp [Ne.symm sameSubscriber]
    · by_cases sameSubscriber : subscriber = subs.record.subscriber
      · rw [sameSubscriber] at pair ⊢
        rw [update_self, update_of_ne samePublisher, filter_append, pair]
        simp [Ne.symm samePublisher]
      · rw [update_of_ne samePublisher, update_of_ne sameSubscriber, pair]
  · intro publisher other among
    rcases either publisher other among with old | ⟨last, -⟩
    · exact Nat.lt_succ_of_lt (kept.used publisher other old)
    · rw [last, new]
      exact Nat.lt_succ_self _
  · intro publisher
    unfold appendSubs
    dsimp only
    by_cases here : publisher = subs.record.publisher
    · rw [here, update_self, map_append, map_singleton]
      refine (kept.once _).append (nodup_singleton _) ?_
      rw [disjoint_singleton]
      intro among
      have ⟨other, old, same⟩ := mem_map.1 among
      have less := kept.used _ other old
      omega
    · rw [update_of_ne here]
      exact kept.once publisher
  · intro left right first here second there same
    rcases either left first here with old | ⟨last, own⟩
    · rcases either right second there with older | ⟨newest, belongs⟩
      · exact kept.apart left right first old second older same
      · have less := kept.used left first old
        rw [same, newest, new] at less
        exact absurd less (Nat.lt_irrefl _)
    · rcases either right second there with older | ⟨newest, belongs⟩
      · have less := kept.used right second older
        rw [← same, last, new] at less
        exact absurd less (Nat.lt_irrefl _)
      · rw [own, belongs]
  · intro publisher other among
    rcases either publisher other among with old | ⟨last, own⟩
    · exact kept.allowed publisher other old
    · rw [last, own]
      exact allowed

theorem Kept.step (kept : Kept classes lists) (call : Call) :
    Kept classes (stepCall json classes lists call) := by
  cases call with
  | subscribe publisher event kw subscriber accepted =>
    unfold stepCall gobjSubscribeEvent
    dsimp only
    rw [Classes.check_eq]
    cases allowed : classes.allows publisher event with
    | false => exact kept
    | true =>
      have cleaned := @Kept.deleteAll json classes lists kept
        (findSubscriptions json lists publisher event kw subscriber) false
      have appended := @Kept.append classes _ cleaned (newSubs classes
        (gobjUnsubscribeList json lists (findSubscriptions json lists publisher event kw subscriber)
          false) publisher event kw subscriber) rfl allowed
      cases accepted with
      | true => exact appended
      | false => exact appended.delete _ true
  | unsubscribe publisher event kw subscriber =>
    unfold stepCall gobjUnsubscribeEvent
    dsimp only
    split
    · exact kept
    · exact kept.deleteAll _ false
  | unsubscribeList dlSubs force => exact kept.deleteAll dlSubs force

theorem kept_noLists : Kept classes noLists := by
  constructor <;> simp [noLists]

end Kept

/-! ## What calls should do -/

/-- The same dict of key words, or none in both. -/
def sameDict (json : JsonEqual) (stored asked : Fields) : Bool :=
  if asked.length > 0 then
    if stored.length > 0 then json.equal (.object stored) (.object asked) else false
  else stored.length = 0

/-- The same filter, or none in both. -/
def sameFilter (json : JsonEqual) : Option Json → Option Json → Bool
  | none, none => true
  | some stored, some asked => json.equal stored asked
  | _, _ => false

/-- The same `__config__`, `__global__`, `__local__` and `__filter__`. -/
def sameKw (json : JsonEqual) (stored asked : Fields) : Bool :=
  sameDict json (subscriptionKw stored).config (subscriptionKw asked).config &&
    sameDict json (subscriptionKw stored).globalKw (subscriptionKw asked).globalKw &&
    sameDict json (subscriptionKw stored).localKw (subscriptionKw asked).localKw &&
    sameFilter json (subscriptionKw stored).filter (subscriptionKw asked).filter

/-- A subscription made with these arguments. -/
def madeWith (json : JsonEqual) (publisher : Nat) (event : String) (kw : Fields) (subscriber : Nat)
    (subs : Subs) : Bool :=
  subs.record.publisher = publisher && subs.record.subscriber = subscriber &&
    subs.record.event = event && sameKw json subs.asked kw

/-- A subscription that the deletion of a list takes away: listed, and not hard unless forced. -/
def taken (dlSubs : List Subs) (force : Bool) (subs : Subs) : Bool :=
  dlSubs.any (fun listed => listed.address = subs.address) &&
    (!subs.record.hardSubscription || force)

/-- A call adds and removes exactly what it names. -/
def Exact (json : JsonEqual) (classes : Classes) (before : Lists) (call : Call) : Prop :=
  let after := stepCall json classes before call
  match call with
  | .subscribe publisher event kw subscriber accepted =>
    (∀ owner, ∀ subs ∈ before.subscriptions owner,
      madeWith json publisher event kw subscriber subs = false →
        subs ∈ after.subscriptions owner) ∧
    (∀ owner, ∀ subs ∈ after.subscriptions owner, subs ∈ before.subscriptions owner ∨
      madeWith json publisher event kw subscriber subs = true) ∧
    (classes.allows publisher event = true → accepted = true →
      ((after.subscriptions publisher).filter
        (madeWith json publisher event kw subscriber)).length = 1)
  | .unsubscribe publisher event kw subscriber =>
    ∀ subs ∈ before.subscriptions publisher,
      madeWith json publisher event kw subscriber subs = true →
        subs.record.hardSubscription = false → subs ∉ after.subscriptions publisher
  | .unsubscribeList dlSubs force =>
    ∀ owner, after.subscriptions owner =
      (before.subscriptions owner).filter fun subs => !taken dlSubs force subs

/-- Each subscription to delete is, of those that stay when those listed before it are gone, the
first that it matches; or it is gone, and matches none. -/
structure Clear (json : JsonEqual) (lists : Lists) (dlSubs : List Subs) (force : Bool) : Prop where
  own : ∀ subs ∈ dlSubs, ∀ owner, ∀ other ∈ lists.subscriptions owner,
    other.address = subs.address → other = subs
  first : ∀ before subs after, dlSubs = before ++ subs :: after →
    (subs.record.hardSubscription = false ∨ force = true) →
      ((lists.subscriptions subs.record.publisher).filter fun other =>
          !taken before force other).find? (subs.pattern json) =
        ((lists.subscriptions subs.record.publisher).filter fun other =>
          !taken before force other).find? fun other => other.address = subs.address

/-- The state before a call lets it do exactly what it names. -/
def Unmistakable (json : JsonEqual) (classes : Classes) (lists : Lists) : Call → Prop
  | .subscribe publisher event kw subscriber accepted =>
    classes.allows publisher event = true →
      (∀ subs ∈ lists.subscriptions publisher,
        let found := matchSubscription json subs.record publisher event (subscriptionKw kw)
          subscriber
        if madeWith json publisher event kw subscriber subs then
          found = true ∧ subs.record.hardSubscription = false
        else found = true → subs.record.hardSubscription = true) ∧
      Clear json lists (findSubscriptions json lists publisher event kw subscriber) false ∧
      (accepted = false → ∀ subs ∈ lists.subscriptions publisher,
        madeWith json publisher event kw subscriber subs = false →
          (newSubs classes lists publisher event kw subscriber).pattern json subs = false)
  | .unsubscribe publisher event kw subscriber =>
    classes.allows publisher event = true →
      (∀ subs ∈ lists.subscriptions publisher,
        madeWith json publisher event kw subscriber subs = true →
          subs.record.hardSubscription = false →
            matchSubscription json subs.record publisher event (subscriptionKw kw) subscriber =
              true) ∧
      Clear json lists (findSubscriptions json lists publisher event kw subscriber) false
  | .unsubscribeList dlSubs force => Clear json lists dlSubs force

section Exact

variable {json : JsonEqual} {classes : Classes} {lists : Lists}

theorem Clear.init {dlSubs : List Subs} {last : Subs} {force : Bool}
    (clear : Clear json lists (dlSubs ++ [last]) force) : Clear json lists dlSubs force where
  own := fun subs listed => clear.own subs (mem_append_left _ listed)
  first := by
    intro before subs after split deleted
    exact clear.first before subs (after ++ [last]) (by rw [split]; simp) deleted

theorem unsubscribeList_exact (kept : Kept classes lists) {dlSubs : List Subs} {force : Bool}
    (clear : Clear json lists dlSubs force) (owner : Nat) :
    (gobjUnsubscribeList json lists dlSubs force).subscriptions owner =
      (lists.subscriptions owner).filter fun subs => !taken dlSubs force subs := by
  induction dlSubs using List.reverseRecOn generalizing owner with
  | nil =>
    rw [filter_eq_self.2 fun subs _ => by rfl]
    rfl
  | append_singleton before subs ih =>
    have earlier := ih clear.init
    have step : gobjUnsubscribeList json lists (before ++ [subs]) force =
        deleteSubscription json (gobjUnsubscribeList json lists before force) subs force := by
      unfold gobjUnsubscribeList
      rw [foldl_append]
      rfl
    have listed (other : Subs) : taken (before ++ [subs]) force other =
        (taken before force other || subs.address = other.address &&
          (!other.record.hardSubscription || force)) := by
      unfold taken
      rw [any_append, and_or_distrib_right]
      simp
    have own := clear.own subs (mem_append_right _ (mem_singleton.2 rfl))
    rw [step]
    unfold deleteSubscription
    split
    · rename_i hard
      -- A hard subscription stays, and with it the list.
      rw [earlier owner]
      apply filter_congr
      intro other here
      rw [listed]
      by_cases same : subs.address = other.address
      · rw [own owner other here same.symm]
        simp only [and_eq_true, not_eq_true'] at hard
        simp [hard.1, hard.2]
      · simp [same]
    · have deleted : subs.record.hardSubscription = false ∨ force = true := by
        cases hard : subs.record.hardSubscription <;> cases forced : force <;> simp_all
      dsimp only
      by_cases here : owner = subs.record.publisher
      · rw [here, update_self, earlier]
        have first := clear.first before subs [] rfl deleted
        have pointwise : ∀ other ∈ lists.subscriptions subs.record.publisher,
            (!taken (before ++ [subs]) force other) =
              (decide (other.address ≠ subs.address) && !taken before force other) := by
          intro other there
          rw [listed]
          by_cases same : subs.address = other.address
          · rw [own _ other there same.symm]
            rcases deleted with soft | forced
            · simp [soft]
            · simp [forced]
          · simp [same, Ne.symm same]
        rw [filter_congr pointwise, ← filter_filter]
        cases found : ((lists.subscriptions subs.record.publisher).filter fun other =>
            !taken before force other).find? fun other => other.address = subs.address with
        | none =>
          rw [found] at first
          rw [eraseP_of_forall_not fun other among => find?_eq_none.1 first other among]
          exact (filter_eq_self.2 fun other among => by
            simpa using find?_eq_none.1 found other among).symm
        | some other =>
          rw [found] at first
          have same : other.address = subs.address := by simpa using find?_some found
          rw [eraseP_eq_filter first ((kept.once _).sublist (filter_sublist.map _)), same]
      · rw [update_of_ne here, earlier]
        apply filter_congr
        intro other there
        rw [listed]
        have other_address : subs.address ≠ other.address := by
          intro same
          apply here
          rw [← kept.publisher owner other there, own owner other there same.symm]
        simp [other_address]

theorem taken_findSubscriptions (kept : Kept classes lists) (publisher : Nat) (event : String)
    (kw : Fields) (subscriber : Nat) (owner : Nat) {subs : Subs}
    (here : subs ∈ lists.subscriptions owner) :
    taken (findSubscriptions json lists publisher event kw subscriber) false subs =
      (decide (owner = publisher) &&
        matchSubscription json subs.record publisher event (subscriptionKw kw) subscriber &&
        !subs.record.hardSubscription) := by
  have found : (findSubscriptions json lists publisher event kw subscriber).any
      (fun listed => listed.address = subs.address) =
      (decide (owner = publisher) &&
        matchSubscription json subs.record publisher event (subscriptionKw kw) subscriber) := by
    rw [Bool.eq_iff_iff, any_eq_true, Bool.and_eq_true, decide_eq_true_eq]
    unfold findSubscriptions
    constructor
    · rintro ⟨listed, among, same⟩
      rw [mem_filter] at among
      have one := kept.eq_of_address among.1 here (by simpa using same)
      rw [one] at among
      exact ⟨kept.apart owner publisher subs here subs among.1 rfl, among.2⟩
    · rintro ⟨own, matched⟩
      exact ⟨subs, mem_filter.2 ⟨own ▸ here, matched⟩, by simp⟩
  unfold taken
  rw [found, Bool.or_false]

theorem next_unsubscribeList (dlSubs : List Subs) (force : Bool) :
    (gobjUnsubscribeList json lists dlSubs force).next = lists.next := by
  unfold gobjUnsubscribeList
  induction dlSubs generalizing lists with
  | nil => rfl
  | cons subs rest ih =>
    rw [foldl_cons, ih]
    unfold deleteSubscription
    split <;> rfl

theorem sameDict_refl (json : JsonEqual) (dict : Fields) : sameDict json dict dict = true := by
  unfold sameDict
  split
  · exact json.refl _
  · rename_i empty
    simpa using empty

theorem sameKw_refl (json : JsonEqual) (kw : Fields) : sameKw json kw kw = true := by
  unfold sameKw
  rw [sameDict_refl, sameDict_refl, sameDict_refl, Bool.true_and, Bool.true_and, Bool.true_and]
  cases (subscriptionKw kw).filter with
  | none => rfl
  | some filter => exact json.refl filter

theorem madeWith_newSubs (publisher : Nat) (event : String) (kw : Fields) (subscriber : Nat) :
    madeWith json publisher event kw subscriber
      (newSubs classes lists publisher event kw subscriber) = true := by
  unfold madeWith newSubs createSubscription
  simp [sameKw_refl]

theorem Subs.pattern_self (json : JsonEqual) (subs : Subs) : subs.pattern json subs = true := by
  have dict (fields : Fields) : matchDict json fields fields = true := by
    unfold matchDict
    split
    · exact json.refl _
    · rfl
  have filter (value : Option Json) : matchFilter json value value = true := by
    cases value with
    | none => rfl
    | some value => exact json.refl value
  unfold Subs.pattern matchSubscription Subscription.kw
  simp [dict, filter]

section

variable (kept : Kept classes lists)
include kept

/-- The subscriptions that stay when a call of `gobj_subscribe_event` has removed those repeated. -/
theorem mem_withoutRepeated {publisher : Nat} {event : String} {kw : Fields} {subscriber : Nat}
    (names : ∀ subs ∈ lists.subscriptions publisher,
      let found := matchSubscription json subs.record publisher event (subscriptionKw kw) subscriber
      if madeWith json publisher event kw subscriber subs then
        found = true ∧ subs.record.hardSubscription = false
      else found = true → subs.record.hardSubscription = true)
    (clear : Clear json lists (findSubscriptions json lists publisher event kw subscriber) false)
    (owner : Nat) (subs : Subs) :
    subs ∈ (gobjUnsubscribeList json lists
        (findSubscriptions json lists publisher event kw subscriber) false).subscriptions owner ↔
      subs ∈ lists.subscriptions owner ∧
        madeWith json publisher event kw subscriber subs = false := by
  rw [unsubscribeList_exact kept clear, mem_filter]
  apply and_congr_right
  intro here
  rw [taken_findSubscriptions kept publisher event kw subscriber owner here]
  by_cases own : owner = publisher
  · subst own
    have named := names subs here
    split at named
    · rename_i made
      simp [made, named.1, named.2]
    · rename_i other
      cases found : matchSubscription json subs.record owner event (subscriptionKw kw) subscriber
      · simp [other]
      · simp [other, named found]
  · have other : madeWith json publisher event kw subscriber subs = false := by
      unfold madeWith
      simp [kept.publisher owner subs here, own]
    simp [own, other]

/-- A call of `gobj_subscribe_event` adds its subscription and removes those made with the same
arguments. -/
theorem subscribe_exact {publisher : Nat} {event : String} {kw : Fields}
    {subscriber : Nat} {accepted : Bool}
    (clear : Unmistakable json classes lists (.subscribe publisher event kw subscriber accepted)) :
    Exact json classes lists (.subscribe publisher event kw subscriber accepted) := by
  cases allowed : classes.allows publisher event with
  | false =>
    have refused : stepCall json classes lists
        (.subscribe publisher event kw subscriber accepted) = lists := by
      unfold stepCall gobjSubscribeEvent
      dsimp only
      rw [Classes.check_eq, allowed, Bool.not_false, if_pos rfl]
    unfold Exact
    dsimp only
    rw [refused, allowed]
    exact ⟨fun owner subs here _ => here, fun owner subs here => Or.inl here,
      fun never => by cases never⟩
  | true =>
    have ⟨names, found, refusal⟩ := clear allowed
    have stay := mem_withoutRepeated kept names found
    have new : newSubs classes (gobjUnsubscribeList json lists
        (findSubscriptions json lists publisher event kw subscriber) false) publisher event kw
          subscriber = newSubs classes lists publisher event kw subscriber := by
      unfold newSubs
      rw [next_unsubscribeList]
    have after : ∀ owner, (stepCall json classes lists
        (.subscribe publisher event kw subscriber accepted)).subscriptions owner =
        (gobjUnsubscribeList json lists (findSubscriptions json lists publisher event kw subscriber)
          false).subscriptions owner ++
          if owner = publisher ∧ accepted = true then
            [newSubs classes lists publisher event kw subscriber] else [] := by
      intro owner
      unfold stepCall gobjSubscribeEvent
      dsimp only
      rw [Classes.check_eq, allowed, Bool.not_true, if_neg Bool.false_ne_true, new]
      have own : (newSubs classes lists publisher event kw subscriber).record.publisher =
          publisher := rfl
      cases accepted with
      | true =>
        rw [if_pos rfl]
        unfold appendSubs
        dsimp only
        rw [own]
        by_cases here : owner = publisher
        · rw [here, update_self, if_pos ⟨rfl, rfl⟩]
        · rw [update_of_ne here, if_neg fun both => here both.1, append_nil]
      | false =>
        have unlike := refusal rfl
        rw [if_neg Bool.false_ne_true, if_neg (fun both => by cases both.2), append_nil]
        unfold deleteSubscription
        rw [if_neg (by simp)]
        unfold appendSubs
        dsimp only
        rw [own]
        by_cases here : owner = publisher
        · rw [here, update_self, update_self, eraseP_append_right,
            eraseP_cons_of_pos (Subs.pattern_self json _), append_nil]
          intro subs among
          have old := (stay publisher subs).1 among
          rw [unlike subs old.1 old.2]
          exact false_ne_true
        · rw [update_of_ne here, update_of_ne here]
    unfold Exact
    refine ⟨fun owner subs here other => ?_, fun owner subs here => ?_, fun _ isAccepted => ?_⟩
    · rw [after]
      exact mem_append_left _ ((stay owner subs).2 ⟨here, other⟩)
    · rw [after, mem_append] at here
      rcases here with old | last
      · exact Or.inl ((stay owner subs).1 old).1
      · right
        split at last
        · rw [mem_singleton.1 last]
          exact madeWith_newSubs publisher event kw subscriber
        · cases last
    · rw [after, if_pos ⟨rfl, isAccepted⟩, filter_append, filter_eq_nil_iff.2,
        filter_cons_of_pos (madeWith_newSubs publisher event kw subscriber)]
      · rfl
      · intro subs among
        rw [((stay publisher subs).1 among).2]
        exact false_ne_true

/-- A call of `gobj_unsubscribe_event` removes what was made with its arguments, unless it is
hard. -/
theorem unsubscribe_exact {publisher : Nat} {event : String} {kw : Fields} {subscriber : Nat}
    (clear : Unmistakable json classes lists (.unsubscribe publisher event kw subscriber)) :
    Exact json classes lists (.unsubscribe publisher event kw subscriber) := by
  intro subs here made soft
  have isEvent : subs.record.event = event := by
    unfold madeWith at made
    simp only [Bool.and_eq_true, decide_eq_true_eq] at made
    exact made.1.2
  have allowed : classes.allows publisher event = true := isEvent ▸ kept.allowed publisher subs here
  have ⟨names, found⟩ := clear allowed
  unfold stepCall gobjUnsubscribeEvent
  dsimp only
  rw [Classes.check_eq, allowed, Bool.not_true, if_neg Bool.false_ne_true, unsubscribeList_exact kept found, mem_filter]
  intro stays
  have gone := stays.2
  rw [taken_findSubscriptions kept publisher event kw subscriber publisher here,
    names subs here made soft, soft] at gone
  simp at gone

theorem exact_of_unmistakable (call : Call)
    (clear : Unmistakable json classes lists call) : Exact json classes lists call := by
  cases call with
  | subscribe publisher event kw subscriber accepted => exact subscribe_exact kept clear
  | unsubscribe publisher event kw subscriber => exact unsubscribe_exact kept clear
  | unsubscribeList dlSubs force => exact unsubscribeList_exact kept clear

end

end Exact

/-- Every subscription is in the list of its publisher exactly when it is in that of its
subscriber. -/
def BothSides (lists : Lists) : Prop :=
  ∀ subs : Subs, subs ∈ lists.subscriptions subs.record.publisher ↔
    subs ∈ lists.subscribings subs.record.subscriber

theorem Kept.bothSides {classes : Classes} {lists : Lists} (kept : Kept classes lists) :
    BothSides lists := by
  intro subs
  have pair := kept.paired subs.record.publisher subs.record.subscriber
  have left : subs ∈ lists.subscriptions subs.record.publisher ↔
      subs ∈ (lists.subscriptions subs.record.publisher).filter fun other =>
        other.record.subscriber = subs.record.subscriber := by simp
  have right : subs ∈ lists.subscribings subs.record.subscriber ↔
      subs ∈ (lists.subscribings subs.record.subscriber).filter fun other =>
        other.record.publisher = subs.record.publisher := by simp
  rw [left, right, pair]

/-- `json_equal`, on values whose objects have the same order. -/
def orderedEqual : JsonEqual := ⟨Json.same, Json.same_refl⟩

/-- Classes that have every output event, and every event registered. -/
def allClasses : Classes := ⟨some, fun _ _ => true⟩

end Yunetas.Gobj
