import Stencil.Proofs.Creating
import Mathlib.Data.Finset.Card
import Mathlib.Data.Finset.Dedup

/-!
# What a cache remembers

A cache is used through handles, which are copies of its number in the session, in any order and
between operations on other caches. What has been asked of it and answered tells what it holds: a key
is used when a template is stored under it or found there, and a template is kept until as many
other keys have been used since as the cache has room for. Main statement: this is exactly what a
look-up finds, and a look-up that finds nothing, like one that only asks, leaves no trace
(`get_exactly_recent`).
-/

namespace Stencil

namespace Cache

/-! ## Operations -/

/-- What can be asked of a cache. -/
inductive Operation where
  | get (key : String)
  | set (key : String) (t : Template)
  | remove (key : String)
  | clear
  | contains (key : String)
  | size

/-- What a cache answers. -/
inductive Answer where
  /-- The template that was found, if any. -/
  | template (found : Option Template)
  | done
  | holds (yes : Bool)
  | count (n : Nat)

/-- The answer to an operation, and the cache after it. -/
def perform (c : Cache) : Operation → Except Error Answer × Cache
  | .get key => ((c.get key).1.map .template, (c.get key).2)
  | .set key t => ((c.set key t).1.map fun _ => .done, (c.set key t).2)
  | .remove key => ((c.remove key).1.map fun _ => .done, (c.remove key).2)
  | .clear => (c.clear.1.map fun _ => .done, c.clear.2)
  | .contains key => (.ok (.holds (c.contains key)), c)
  | .size => (.ok (.count c.size), c)

/-! ## Turns -/

/-- An operation and its answer. -/
structure Turn where
  operation : Operation
  answer : Except Error Answer

namespace Turn

/-- The key that is used: one that a template is stored under or found under. -/
def used? : Turn → Option String
  | ⟨.get key, .ok (.template (some _))⟩ => some key
  | ⟨.set key _, .ok _⟩ => some key
  | _ => none

/-- Whether templates are taken out. -/
def isDrop (turn : Turn) : Bool :=
  match turn.operation with
  | .remove _ | .clear => true
  | _ => false

end Turn

/-- The template stored last under a key, unless it has been taken out since. The latest turn comes
first. -/
def latest? (key : String) : List Turn → Option Template
  | [] => none
  | ⟨.set k t, _⟩ :: turns => if k = key then some t else latest? key turns
  | ⟨.remove k, _⟩ :: turns => if k = key then none else latest? key turns
  | ⟨.clear, _⟩ :: _ => none
  | _ :: turns => latest? key turns

/-- The other keys used since a key was used last, each as often as it was used. -/
def othersSince (key : String) : List Turn → List String
  | [] => []
  | turn :: turns =>
    match turn.used? with
    | none => othersSince key turns
    | some k => if k = key then [] else k :: othersSince key turns

/-- Nothing else has been used since a key was used just now. -/
theorem othersSince_cons_self {turn : Turn} {key : String} (h : turn.used? = some key)
    (turns : List Turn) : othersSince key (turn :: turns) = [] := by
  simp [othersSince, h]

/-- One more key has been used since. -/
theorem othersSince_cons_of_ne {turn : Turn} {k key : String} (h : turn.used? = some k)
    (hne : key ≠ k) (turns : List Turn) :
    othersSince key (turn :: turns) = k :: othersSince key turns := by
  simp [othersSince, h, Ne.symm hne]

/-- A turn that uses no key does not count. -/
theorem othersSince_cons_of_none {turn : Turn} (h : turn.used? = none) (key : String)
    (turns : List Turn) : othersSince key (turn :: turns) = othersSince key turns := by
  simp [othersSince, h]

/-! ## The order of the entries -/

/-- Where some keys without one of them fall apart before another key, so do all of them. -/
theorem exists_of_filter_eq {keys newer older : List String} {k j : String}
    (h : (keys.filter fun x => x ≠ k) = newer ++ j :: older) :
    ∃ before after, keys = before ++ j :: after ∧ (before.filter fun x => x ≠ k) = newer ∧
      j ≠ k := by
  obtain ⟨front, back, rfl, hfront, hback⟩ := List.filter_eq_append_iff.1 h
  obtain ⟨gone, after, rfl, hgone, hj, -⟩ := List.filter_eq_cons_iff.1 hback
  refine ⟨front ++ gone, after, by simp, ?_, by simpa using hj⟩
  rw [List.filter_append, hfront, List.filter_eq_nil_iff.2 hgone, List.append_nil]

/-- In front of a key that was there before stand the key that is stored and those that stood in
front of it before. -/
theorem exists_of_keys_put {l : Lru Template} {k j : String} {t : Template}
    {newer older : List String} (h : (l.put k t).keys = newer ++ j :: older) :
    newer = [] ∧ j = k ∨ ∃ before after, l.keys = before ++ j :: after ∧
      newer = k :: (before.filter fun x => x ≠ k) ∧ j ≠ k := by
  rw [Lru.keys_put] at h
  cases newer with
  | nil => exact Or.inl ⟨rfl, (List.cons.inj h).1.symm⟩
  | cons x newer =>
    obtain ⟨rfl, htake⟩ := List.cons.inj h
    -- what falls out of a full store stands behind all that stays
    have hall := List.take_append_drop (l.capacity - 1) (l.keys.filter fun x => x ≠ k)
    have hjoin : (l.keys.filter fun x => x ≠ k) = newer ++ j :: (older ++
        (l.keys.filter fun x => x ≠ k).drop (l.capacity - 1)) := by
      rw [← List.cons_append, ← List.append_assoc]
      exact hall.symm.trans (congrArg (· ++ _) htake)
    obtain ⟨before, after, hkeys, rfl, hne⟩ := exists_of_filter_eq hjoin
    exact Or.inr ⟨before, after, hkeys, rfl, hne⟩

/-- The turns, the latest first, explain what a store holds and in which order. -/
structure Recent (l : Lru Template) (turns : List Turn) : Prop where
  /-- What is held was stored last. -/
  latest : ∀ k t, (k, t) ∈ l.entries → latest? k turns = some t
  /-- What stands in front of a key has been used since. -/
  used : ∀ newer k older, l.keys = newer ++ k :: older → ∀ x ∈ newer, x ∈ othersSince k turns
  /-- What was stored is held, or there has been no room for it. -/
  held : ∀ k t, latest? k turns = some t →
    k ∈ l.keys ∨ l.capacity ≤ (othersSince k turns).toFinset.card
  /-- If nothing was taken out, what has been used since stands in front of a key. -/
  front : (∀ turn ∈ turns, turn.isDrop = false) → ∀ newer k older,
    l.keys = newer ++ k :: older → ∀ x ∈ othersSince k turns, x ∈ newer

namespace Recent

variable {l : Lru Template} {turns : List Turn}

/-- A store without entries, if all that was stored has been taken out. -/
theorem of_entries_eq_nil (hl : l.entries = []) (h : ∀ k, latest? k turns = none) :
    Recent l turns := by
  have hkeys : l.keys = [] := by
    rw [Lru.keys, hl]
    rfl
  constructor
  · intro k t hmem
    rw [hl] at hmem
    cases hmem
  · intro newer k older hsplit
    simp [hkeys] at hsplit
  · intro k t hlatest
    rw [h k] at hlatest
    cases hlatest
  · intro _ newer k older hsplit
    simp [hkeys] at hsplit

/-- A turn that uses nothing and takes nothing out explains as much. -/
theorem quiet (h : Recent l turns) {turn : Turn} (hused : turn.used? = none)
    (hlatest : ∀ k, latest? k (turn :: turns) = latest? k turns) : Recent l (turn :: turns) := by
  constructor
  · intro k t hmem
    rw [hlatest]
    exact h.latest k t hmem
  · intro newer k older hsplit
    rw [othersSince_cons_of_none hused]
    exact h.used newer k older hsplit
  · intro k t
    rw [hlatest, othersSince_cons_of_none hused]
    exact h.held k t
  · intro hdrops newer k older hsplit
    rw [othersSince_cons_of_none hused]
    exact h.front (fun turn hturn => hdrops turn (List.mem_cons_of_mem _ hturn)) newer k older hsplit

/-- A key that falls out of a full store has as many others in front of it as there is room for,
among them the key that is stored. -/
theorem capacity_le (h : Recent l turns) {k j : String} (hj : j ∈ l.keys) (hne : j ≠ k)
    (hout : j ∉ (l.keys.filter fun x => x ≠ k).take (l.capacity - 1)) :
    l.capacity ≤ (k :: othersSince j turns).toFinset.card := by
  have hmem : j ∈ l.keys.filter fun x => x ≠ k := by simp [hj, hne]
  have hsplit := List.take_append_drop (l.capacity - 1) (l.keys.filter fun x => x ≠ k)
  generalize hfirst : (l.keys.filter fun x => x ≠ k).take (l.capacity - 1) = first at hout hsplit
  rw [← hsplit, List.mem_append] at hmem
  obtain ⟨between, older, hlast⟩ := List.append_of_mem (hmem.resolve_left hout)
  rw [hlast, ← List.append_assoc] at hsplit
  obtain ⟨before, after, hkeys, hbefore, -⟩ := exists_of_filter_eq hsplit.symm
  -- the store is full without `k`, so as many keys as fit beside `k` come before `j`
  have hlength : first.length = l.capacity - 1 := by
    have hshort : l.capacity - 1 < (l.keys.filter fun x => x ≠ k).length := by
      by_contra hlong
      rw [List.take_of_length_le (by omega)] at hfirst
      rw [← hfirst] at hout
      exact hout (by simp [hj, hne])
    rw [← hfirst, List.length_take]
    omega
  have hnodup : (k :: first).Nodup := by
    rw [← hfirst, List.nodup_cons]
    constructor
    · intro hk
      have hk := List.mem_of_mem_take hk
      simp at hk
    · exact (l.nodup.filter _).sublist (List.take_sublist _ _)
  have hsubset : (k :: first).toFinset ⊆ (k :: othersSince j turns).toFinset := by
    intro x hx
    rw [List.mem_toFinset, List.mem_cons] at hx ⊢
    refine hx.imp_right fun hx => ?_
    have hx : x ∈ before.filter fun x => x ≠ k := by
      rw [hbefore]
      exact List.mem_append_left _ hx
    exact h.used before j after hkeys x (List.mem_of_mem_filter hx)
  have hcard := Finset.card_le_card hsubset
  rw [List.toFinset_card_of_nodup hnodup, List.length_cons, hlength] at hcard
  have hpos := l.capacity_pos
  omega

/-- A template is used: stored, or found where it was stored before. -/
theorem put (h : Recent l turns) {turn : Turn} {k : String} {t : Template}
    (hused : turn.used? = some k) (hself : latest? k (turn :: turns) = some t)
    (hother : ∀ j, j ≠ k → latest? j (turn :: turns) = latest? j turns) :
    Recent (l.put k t) (turn :: turns) := by
  constructor
  · intro j t' hmem
    rcases List.mem_cons.1 hmem with heq | hmem
    · cases heq
      exact hself
    · have hother' := List.mem_filter.1 (List.mem_of_mem_take hmem)
      rw [hother j (of_decide_eq_true hother'.2)]
      exact h.latest j t' hother'.1
  · intro newer j older hsplit x hx
    rcases exists_of_keys_put hsplit with ⟨rfl, -⟩ | ⟨before, after, hkeys, rfl, hne⟩
    · cases hx
    · rw [othersSince_cons_of_ne hused hne]
      refine List.mem_cons.2 ((List.mem_cons.1 hx).imp_right fun hx => ?_)
      exact h.used before j after hkeys x (List.mem_of_mem_filter hx)
  · intro j t' hlatest
    rw [Lru.keys_put]
    by_cases hj : j = k
    · exact Or.inl (List.mem_cons.2 (Or.inl hj))
    · rw [hother j hj] at hlatest
      rw [othersSince_cons_of_ne hused hj]
      by_cases hin : j ∈ (l.keys.filter fun x => x ≠ k).take (l.capacity - 1)
      · exact Or.inl (List.mem_cons_of_mem _ hin)
      · right
        rcases h.held j t' hlatest with hkey | hfull
        · exact h.capacity_le hkey hj hin
        · refine Nat.le_trans hfull (Finset.card_le_card fun x hx => ?_)
          rw [List.mem_toFinset] at hx ⊢
          exact List.mem_cons_of_mem _ hx
  · intro hdrops newer j older hsplit x hx
    have hdrops' := fun turn hturn => hdrops turn (List.mem_cons_of_mem _ hturn)
    rcases exists_of_keys_put hsplit with ⟨rfl, rfl⟩ | ⟨before, after, hkeys, rfl, hne⟩
    · rw [othersSince_cons_self hused] at hx
      exact hx
    · rw [othersSince_cons_of_ne hused hne] at hx
      rcases List.mem_cons.1 hx with rfl | hx
      · exact List.mem_cons_self
      · have hfront := h.front hdrops' before j after hkeys x hx
        by_cases hxk : x = k
        · rw [hxk]
          exact List.mem_cons_self
        · exact List.mem_cons_of_mem _ (List.mem_filter.2 ⟨hfront, decide_eq_true hxk⟩)

/-- A template is taken out. -/
theorem erase (h : Recent l turns) (k : String) (answer : Except Error Answer) :
    Recent (l.erase k) (⟨.remove k, answer⟩ :: turns) := by
  have hothers : ∀ j, othersSince j (⟨.remove k, answer⟩ :: turns) = othersSince j turns :=
    fun j => othersSince_cons_of_none rfl j turns
  have hlatest : ∀ j, latest? j (⟨.remove k, answer⟩ :: turns) =
      if k = j then none else latest? j turns := fun _ => rfl
  constructor
  · intro j t hmem
    obtain ⟨hmem, hne⟩ := List.mem_filter.1 hmem
    rw [hlatest, if_neg (Ne.symm (of_decide_eq_true hne))]
    exact h.latest j t hmem
  · intro newer j older hsplit x hx
    rw [Lru.keys_erase] at hsplit
    obtain ⟨before, after, hkeys, rfl, -⟩ := exists_of_filter_eq hsplit
    rw [hothers]
    exact h.used before j after hkeys x (List.mem_of_mem_filter hx)
  · intro j t
    rw [hlatest, hothers, Lru.keys_erase]
    split
    · intro hnone
      cases hnone
    · next hne =>
      intro hsome
      refine (h.held j t hsome).imp_left fun hkey => ?_
      exact List.mem_filter.2 ⟨hkey, decide_eq_true (Ne.symm hne)⟩
  · intro hdrops
    have hdrop := hdrops _ List.mem_cons_self
    cases hdrop

end Recent

/-! ## Turns of a cache -/

/-- What a cache in memory goes on to be: it refuses nothing and has the same room, and the turns
explain what it holds. -/
structure Explained (capacity : Nat) (c : Cache) (turns : List Turn) : Prop where
  willing : c.refuses = none
  capacity_eq : c.entries.capacity = capacity
  recent : Recent c.entries turns

/-- A new cache has had no turns. -/
theorem explained_new {capacity : Nat} {c : Cache} (h : Cache.new capacity = .ok c) :
    Explained capacity c [] := by
  unfold Cache.new at h
  split at h
  · cases h
    exact ⟨rfl, rfl, Recent.of_entries_eq_nil rfl fun _ => rfl⟩
  · cases h

/-- A cache in memory refuses no request. -/
theorem ne_of_willing {c : Cache} (h : c.refuses = none) (request : CacheRequest) :
    c.refuses ≠ some request := by
  simp [h]

/-- What is found is used by that. -/
theorem get_of_peek? {c : Cache} (hwilling : c.refuses = none) {key : String} {t : Template}
    (h : c.entries.peek? key = some t) :
    c.get key = (.ok (some t), { c with entries := c.entries.put key t }) := by
  rw [get, if_neg (ne_of_willing hwilling _), Lru.get, h]

/-- What is not found leaves the cache as it is. -/
theorem get_of_peek?_eq_none {c : Cache} (hwilling : c.refuses = none) {key : String}
    (h : c.entries.peek? key = none) : c.get key = (.ok none, c) := by
  rw [get, if_neg (ne_of_willing hwilling _), Lru.get, h]

/-- **One more turn.** What an operation asks and is answered explains what the cache holds then. -/
theorem Explained.perform {capacity : Nat} {c : Cache} {turns : List Turn}
    (h : Explained capacity c turns) (operation : Operation) :
    Explained capacity (c.perform operation).2
      (⟨operation, (c.perform operation).1⟩ :: turns) := by
  obtain ⟨hwilling, hcapacity, hrecent⟩ := h
  cases operation with
  | get key =>
    rw [Cache.perform]
    cases hpeek : c.entries.peek? key with
    | none =>
      rw [get_of_peek?_eq_none hwilling hpeek]
      exact ⟨hwilling, hcapacity, hrecent.quiet rfl fun _ => rfl⟩
    | some t =>
      rw [get_of_peek? hwilling hpeek]
      have hlatest := hrecent.latest key t (Lru.mem_of_peek? hpeek)
      exact ⟨hwilling, hcapacity, hrecent.put rfl hlatest fun _ _ => rfl⟩
  | set key t =>
    have hset : c.set key t = (.ok (), { c with entries := c.entries.put key t }) := by
      rw [set, if_neg (ne_of_willing hwilling _)]
    rw [Cache.perform, hset]
    refine ⟨hwilling, hcapacity, hrecent.put rfl (if_pos rfl) fun j hj => if_neg (Ne.symm hj)⟩
  | remove key =>
    have hremove : c.remove key = (.ok (), { c with entries := c.entries.erase key }) := by
      rw [remove, if_neg (ne_of_willing hwilling _)]
    rw [Cache.perform, hremove]
    exact ⟨hwilling, hcapacity, hrecent.erase key _⟩
  | clear =>
    have hclear : c.clear = (.ok (), { c with entries := c.entries.clear }) := by
      rw [clear, if_neg (ne_of_willing hwilling _)]
    rw [Cache.perform, hclear]
    exact ⟨hwilling, hcapacity, Recent.of_entries_eq_nil rfl fun _ => rfl⟩
  | contains key => exact ⟨hwilling, hcapacity, hrecent.quiet rfl fun _ => rfl⟩
  | size => exact ⟨hwilling, hcapacity, hrecent.quiet rfl fun _ => rfl⟩

/-- **What a look-up finds**, told from the turns. -/
theorem Explained.get {capacity : Nat} {c : Cache} {turns : List Turn}
    (h : Explained capacity c turns) (key : String) :
    ∃ found, (c.perform (.get key)).1 = .ok (.template found) ∧
      (∀ t, found = some t → latest? key turns = some t) ∧
      (∀ t, latest? key turns = some t → (othersSince key turns).toFinset.card < capacity →
        found = some t) ∧
      ((∀ turn ∈ turns, turn.isDrop = false) →
        capacity ≤ (othersSince key turns).toFinset.card → found = none) := by
  obtain ⟨hwilling, rfl, hrecent⟩ := h
  refine ⟨c.entries.peek? key, ?_, ?_, ?_, ?_⟩
  · rw [Cache.perform]
    cases hpeek : c.entries.peek? key with
    | none =>
      rw [get_of_peek?_eq_none hwilling hpeek]
      rfl
    | some t =>
      rw [get_of_peek? hwilling hpeek]
      rfl
  · intro t hpeek
    exact hrecent.latest key t (Lru.mem_of_peek? hpeek)
  · intro t hlatest hroom
    rcases hrecent.held key t hlatest with hkey | hfull
    · obtain ⟨t', hpeek⟩ := Lru.exists_peek?_of_mem_keys hkey
      have hlatest' := hrecent.latest key t' (Lru.mem_of_peek? hpeek)
      rw [hpeek, ← hlatest', hlatest]
    · omega
  · intro hdrops hfull
    by_contra hsome
    obtain ⟨t, hpeek⟩ := Option.ne_none_iff_exists'.1 hsome
    obtain ⟨newer, older, hsplit⟩ := List.append_of_mem (Lru.mem_keys_of_peek? hpeek)
    -- all keys used since stand in front of this one, and there is no room for so many
    have hsubset : (othersSince key turns).toFinset ⊆ newer.toFinset := by
      intro x hx
      rw [List.mem_toFinset] at hx ⊢
      exact hrecent.front hdrops newer key older hsplit x hx
    have hcard := Nat.le_trans (Finset.card_le_card hsubset) (List.toFinset_card_le newer)
    have hlength := congrArg List.length hsplit
    have hsize := c.entries.length_le
    rw [Lru.keys, List.length_map, List.length_append, List.length_cons] at hlength
    omega

/-- A look-up that finds nothing leaves the cache as it is. -/
theorem Explained.perform_get_eq_self {capacity : Nat} {c : Cache} {turns : List Turn}
    (h : Explained capacity c turns) {key : String}
    (hnone : (c.perform (.get key)).1 = .ok (.template none)) : (c.perform (.get key)).2 = c := by
  rw [Cache.perform] at hnone ⊢
  cases hpeek : c.entries.peek? key with
  | none => rw [get_of_peek?_eq_none h.willing hpeek]
  | some t =>
    rw [get_of_peek? h.willing hpeek] at hnone
    cases hnone

end Cache

/-! ## Handles -/

namespace Session

/-- An operation on the cache of a handle. -/
def operate (s : Session) (id : CacheId) (operation : Cache.Operation) :
    Except Error Cache.Answer × Session :=
  s.withCache id .done (·.perform operation)

/-- The session after one more operation, and the turns that one cache has had, the latest first. -/
def observe (id : CacheId) (past : Session × List Cache.Turn) (call : CacheId × Cache.Operation) :
    Session × List Cache.Turn :=
  ((past.1.operate call.1 call.2).2,
    if call.1 = id then ⟨call.2, (past.1.operate call.1 call.2).1⟩ :: past.2 else past.2)

/-- The session after some operations on its caches, and the turns that one of them has had. -/
def watch (s : Session) (id : CacheId) (calls : List (CacheId × Cache.Operation)) :
    Session × List Cache.Turn :=
  calls.foldl (observe id) (s, [])

variable {s : Session} {id : CacheId} {c : Cache}

/-- An operation gives what the cache gives. -/
theorem operate_eq (h : s.caches[id]? = some c) (operation : Cache.Operation) :
    s.operate id operation = ((c.perform operation).1,
      { s with caches := s.caches.set id (c.perform operation).2 }) := by
  unfold operate
  exact withCache_eq h _ _

/-- An operation that leaves its cache as it is leaves the session as it is. -/
theorem operate_of_perform_eq (h : s.caches[id]? = some c) {operation : Cache.Operation}
    (hquiet : (c.perform operation).2 = c) : (s.operate id operation).2 = s := by
  rw [operate_eq h, hquiet]
  exact set_caches_self h

/-- An operation on another cache leaves a cache as it is. -/
theorem caches_operate_of_ne {id' : CacheId} (hne : id' ≠ id) (operation : Cache.Operation) :
    (s.operate id' operation).2.caches[id]? = s.caches[id]? := by
  unfold operate withCache
  split
  · rfl
  · exact List.getElem?_set_ne hne

/-- The cache of a handle, and the turns that explain it. -/
def Explains (capacity : Nat) (id : CacheId) (past : Session × List Cache.Turn) : Prop :=
  ∃ c, past.1.caches[id]? = some c ∧ Cache.Explained capacity c past.2

/-- **The invariant of an operation**, on this cache or on another one. -/
theorem explains_observe {capacity : Nat} {past : Session × List Cache.Turn}
    (h : Explains capacity id past) (call : CacheId × Cache.Operation) :
    Explains capacity id (observe id past call) := by
  obtain ⟨c, hc, hexplained⟩ := h
  obtain ⟨id', operation⟩ := call
  by_cases hid : id' = id
  · subst hid
    refine ⟨(c.perform operation).2, ?_, ?_⟩
    · show (past.1.operate id' operation).2.caches[id']? = _
      rw [operate_eq hc]
      exact List.getElem?_set_self (List.getElem?_eq_some_iff.1 hc).1
    · have hturns : (observe id' past (id', operation)).2 =
          ⟨operation, (c.perform operation).1⟩ :: past.2 := by
        rw [observe, if_pos rfl, operate_eq hc]
      rw [hturns]
      exact hexplained.perform operation
  · refine ⟨c, ?_, ?_⟩
    · show (past.1.operate id' operation).2.caches[id]? = _
      rw [caches_operate_of_ne hid, hc]
    · have hturns : (observe id past (id', operation)).2 = past.2 := by
        rw [observe, if_neg hid]
      rw [hturns]
      exact hexplained

/-- **The invariant of a run.** -/
theorem explains_watch {capacity : Nat} (hnew : Cache.new capacity = .ok c)
    (hc : s.caches[id]? = some c) (calls : List (CacheId × Cache.Operation)) :
    Explains capacity id (s.watch id calls) := by
  have hstart : Explains capacity id (s, []) := ⟨c, hc, Cache.explained_new hnew⟩
  unfold watch
  generalize (s, ([] : List Cache.Turn)) = past at hstart
  induction calls generalizing past with
  | nil => exact hstart
  | cons call calls ih => exact ih _ (explains_observe hstart call)

end Session

/-! ## The main statement -/

/-- **A cache in memory keeps what was used last.** After any operations on the caches of a session,
among them a new one with some room, that cache holds no more than it has room for, and no two
templates under one key. A look-up finds at most the template that was stored last under its key,
and only if nothing took it out. It does find this as long as fewer other keys have been used since
than there is room for; and where nothing was ever taken out, it finds nothing as soon as there are
as many. A look-up that finds nothing changes nothing, and neither does asking for a key or for the
number of templates: so these do not matter for what is dropped next. -/
theorem get_exactly_recent (capacity : Nat) (hpos : 0 < capacity) :
    ∃ c, Cache.new capacity = .ok c ∧
      ∀ (s : Session) (id : CacheId), s.caches[id]? = some c →
      ∀ calls : List (CacheId × Cache.Operation), ∃ s' turns, s.watch id calls = (s', turns) ∧
        (∃ c', s'.caches[id]? = some c' ∧ c'.size ≤ capacity ∧ c'.entries.keys.Nodup) ∧
        (∀ key, ∃ found, (s'.operate id (.get key)).1 = .ok (.template found) ∧
          (∀ t, found = some t → Cache.latest? key turns = some t) ∧
          (∀ t, Cache.latest? key turns = some t →
            (Cache.othersSince key turns).toFinset.card < capacity → found = some t) ∧
          ((∀ turn ∈ turns, turn.isDrop = false) →
            capacity ≤ (Cache.othersSince key turns).toFinset.card → found = none) ∧
          (found = none → (s'.operate id (.get key)).2 = s')) ∧
        (∀ key, (s'.operate id (.contains key)).2 = s') ∧ (s'.operate id .size).2 = s' := by
  have hnew : Cache.new capacity = .ok ⟨.empty capacity hpos, none⟩ := by
    rw [Cache.new, dif_pos hpos]
  refine ⟨_, hnew, ?_⟩
  intro s id hc calls
  obtain ⟨c', hc', hexplained⟩ := Session.explains_watch hnew hc calls
  refine ⟨(s.watch id calls).1, (s.watch id calls).2, rfl, ⟨c', hc', ?_, c'.entries.nodup⟩, ?_, ?_,
    ?_⟩
  · rw [← hexplained.capacity_eq]
    exact c'.entries.length_le
  · intro key
    obtain ⟨found, hanswer, honly, hkept, hdropped⟩ := hexplained.get key
    refine ⟨found, ?_, honly, hkept, hdropped, ?_⟩
    · rw [Session.operate_eq hc']
      exact hanswer
    · rintro rfl
      exact Session.operate_of_perform_eq hc' (hexplained.perform_get_eq_self hanswer)
  · intro key
    exact Session.operate_of_perform_eq hc' rfl
  · exact Session.operate_of_perform_eq hc' rfl

/-- A template that puts out nothing. -/
def blank (handle : Nat) : Template where
  handle
  block := .mk ∅ []
  requiresData := false
  keys := ∅
  source := ""
  escaper := EscapePolicy.raw.escaper 0

/-- Where two templates fit, the one that was looked up in between stays and the other one is
dropped, though it was asked for and though another cache has it. -/
theorem get_exactly_recent_two :
    0 < 2 ∧ ∃ c, Cache.new 2 = .ok c ∧
      ∃ s' turns, Session.watch { caches := [c, c] } 0 [(0, .set "a" (blank 0)),
        (0, .set "b" (blank 1)), (1, .set "b" (blank 1)), (0, .get "a"), (0, .contains "b"),
        (0, .set "c" (blank 2))] = (s', turns) ∧
      (s'.operate 0 (.get "a")).1 = .ok (.template (some (blank 0))) ∧
      (s'.operate 0 (.get "b")).1 = .ok (.template none) := by
  refine ⟨by decide, ?_⟩
  obtain ⟨c, hnew, hrun⟩ := get_exactly_recent 2 (by decide)
  cases hnew
  obtain ⟨s', turns, hwatch, -, hget, -⟩ := hrun { caches := [_, _] } 0 rfl
    [(0, .set "a" (blank 0)), (0, .set "b" (blank 1)), (1, .set "b" (blank 1)), (0, .get "a"),
      (0, .contains "b"), (0, .set "c" (blank 2))]
  refine ⟨_, rfl, s', turns, hwatch, ?_, ?_⟩
  · obtain ⟨found, hanswer, -, hkept, -⟩ := hget "a"
    rw [hanswer, hkept (blank 0)]
    · cases hwatch
      rfl
    · cases hwatch
      decide
  · obtain ⟨found, hanswer, -, -, hdropped, -⟩ := hget "b"
    rw [hanswer, hdropped]
    · cases hwatch
      decide
    · cases hwatch
      decide

end Stencil
