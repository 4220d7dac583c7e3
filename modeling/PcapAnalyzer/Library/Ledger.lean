import Mathlib.Algebra.BigOperators.Group.List.Basic
import Mathlib.Algebra.Order.Ring.Nat
import Mathlib.Data.List.AList

/-!
# Ledgers

A ledger keeps at most one open account for a key. Posting an event opens an
account if there is none, retires the open one first if the rules call it expired,
and records the event; settling retires all open accounts in some order. Whatever
the rules are, the accounts of a key cut the events posted to it into consecutive
runs, and nothing posted is lost or counted twice.
-/

namespace Ledger

set_option autoImplicit false

variable {Key Account Event : Type*} [DecidableEq Key]

structure Rules (Key Account Event : Type*) where
  expired : Account → Event → Bool
  fresh : Key → Event → Account
  record : Account → Event → Account

structure Book (Key Account : Type*) [DecidableEq Key] where
  opened : AList fun _ : Key => Account
  closed : List (Key × Account)

namespace Book

def empty : Book Key Account := { opened := ∅, closed := [] }

def post (rules : Rules Key Account Event) (book : Book Key Account) (key : Key)
    (event : Event) : Book Key Account :=
  let started := rules.record (rules.fresh key event) event
  match book.opened.lookup key with
  | none => { book with opened := book.opened.insert key started }
  | some account =>
      if rules.expired account event then
        { opened := (book.opened.erase key).insert key started
          closed := book.closed ++ [(key, account)] }
      else { book with opened := book.opened.insert key (rules.record account event) }

/-- Every account has the property. -/
structure All (good : Account → Prop) (book : Book Key Account) : Prop where
  closed : ∀ entry ∈ book.closed, good entry.2
  opened : ∀ key account, book.opened.lookup key = some account → good account

/-- The open accounts, in the order in which they happen to be stored. -/
def entries (book : Book Key Account) : List (Key × Account) :=
  book.opened.entries.map fun entry => (entry.1, entry.2)

def settle (book : Book Key Account) (order : List (Key × Account)) : Book Key Account :=
  { opened := ∅, closed := book.closed ++ order }

end Book

/-- The values filed under one key, in order. -/
def ofKey {Value : Type*} (key : Key) (entries : List (Key × Value)) : List Value :=
  (entries.filter fun entry => entry.1 = key).map Prod.snd

/-- The accounts of a key, the retired ones first. -/
def Book.accounts (book : Book Key Account) (key : Key) : List Account :=
  ofKey key book.closed ++ (book.opened.lookup key).toList

section OfKey

variable {Value : Type*}

@[simp] theorem of_key_nil (key : Key) : ofKey key ([] : List (Key × Value)) = [] := rfl

@[simp] theorem of_key_append (key : Key) (left right : List (Key × Value)) :
    ofKey key (left ++ right) = ofKey key left ++ ofKey key right := by
  simp [ofKey]

@[simp] theorem of_key_same (key : Key) (value : Value) : ofKey key [(key, value)] = [value] := by
  simp [ofKey]

theorem of_key_other {key other : Key} (different : other ≠ key) (value : Value) :
    ofKey key [(other, value)] = [] := by
  simp [ofKey, different]

/-- A table with unique keys holds at most one value for a key, in whatever order it
is listed. -/
theorem of_key_perm_entries (table : AList fun _ : Key => Value) (key : Key)
    (order : List (Key × Value))
    (listed : order.Perm (table.entries.map fun entry => (entry.1, entry.2))) :
    ofKey key order = (table.lookup key).toList := by
  have stored : ∀ entries : List (Sigma fun _ : Key => Value), entries.NodupKeys →
      ofKey key (entries.map fun entry => (entry.1, entry.2)) =
        (entries.dlookup key).toList := by
    intro entries unique
    induction entries with
    | nil => simp
    | cons entry rest ih =>
        have split := List.nodupKeys_cons.mp unique
        rw [List.map_cons, ← List.singleton_append, of_key_append, ih split.2]
        by_cases same : entry.1 = key
        · have absent : rest.dlookup key = none := by
            rw [List.dlookup_eq_none, ← same]
            exact split.1
          have head : (entry :: rest).dlookup key = some entry.2 := by
            rw [← same]
            exact List.dlookup_cons_eq rest entry.1 entry.2
          rw [absent, head, same, of_key_same]
          rfl
        · rw [of_key_other same, List.dlookup_cons_ne rest entry (Ne.symm same)]
          rfl
  have sameKey : (ofKey key order).Perm (table.lookup key).toList := by
    have shuffled : (ofKey key order).Perm
        (ofKey key (table.entries.map fun entry => (entry.1, entry.2))) :=
      (listed.filter _).map _
    rwa [stored table.entries table.nodupKeys] at shuffled
  cases found : table.lookup key with
  | none =>
      rw [found] at sameKey
      exact List.perm_nil.mp sameKey
  | some value =>
      rw [found] at sameKey
      exact List.perm_singleton.mp sameKey

theorem mem_of_key {key : Key} {value : Value} {entries : List (Key × Value)} :
    value ∈ ofKey key entries ↔ (key, value) ∈ entries := by
  simp [ofKey]

/-- Filed entries differ exactly if those filed under one key do. -/
theorem nodup_iff_of_key (entries : List (Key × Value)) :
    entries.Nodup ↔ ∀ key, (ofKey key entries).Nodup := by
  induction entries with
  | nil => simp
  | cons entry entries ih =>
      have same : ofKey entry.1 (entry :: entries) =
          entry.2 :: ofKey entry.1 entries := by
        simp [ofKey]
      have other {key : Key} (different : entry.1 ≠ key) :
          ofKey key (entry :: entries) = ofKey key entries := by
        simp [ofKey, different]
      rw [List.nodup_cons, ih]
      constructor
      · rintro ⟨new, distinct⟩ key
        by_cases mine : entry.1 = key
        · subst mine
          rw [same, List.nodup_cons, mem_of_key]
          exact ⟨new, distinct _⟩
        · rw [other mine]
          exact distinct key
      · intro distinct
        have first := distinct entry.1
        rw [same, List.nodup_cons, mem_of_key] at first
        refine ⟨first.1, fun key => ?_⟩
        by_cases mine : entry.1 = key
        · subst mine
          exact first.2
        · rw [← other mine]
          exact distinct key

end OfKey

section Runs

variable (rules : Rules Key Account Event)

/-- The account has recorded exactly the events of a run, from a fresh start. -/
def Records (key : Key) (run : List Event) (account : Account) : Prop :=
  ∃ first rest, run = first :: rest ∧ account = run.foldl rules.record (rules.fresh key first)

/-- The accounts cut the events into consecutive runs. -/
def Cuts (key : Key) (events : List Event) (accounts : List Account) : Prop :=
  ∃ runs : List (List Event), runs.flatten = events ∧
    List.Forall₂ (Records rules key) runs accounts

variable {rules} {key : Key}

omit [DecidableEq Key] in
theorem Cuts.start {events : List Event} {accounts : List Account}
    (cuts : Cuts rules key events accounts) (event : Event) :
    Cuts rules key (events ++ [event])
      (accounts ++ [rules.record (rules.fresh key event) event]) := by
  rcases cuts with ⟨runs, flat, records⟩
  refine ⟨runs ++ [[event]], by simp [flat], ?_⟩
  exact List.rel_append records (.cons ⟨event, [], rfl, rfl⟩ .nil)

omit [DecidableEq Key] in
theorem Cuts.extend {events : List Event} {before : List Account} {account : Account}
    (cuts : Cuts rules key events (before ++ [account])) (event : Event) :
    Cuts rules key (events ++ [event]) (before ++ [rules.record account event]) := by
  rcases cuts with ⟨runs, flat, records⟩
  have earlier := List.forall₂_take_append runs before [account] records
  have last := List.forall₂_drop_append runs before [account] records
  have joined := List.take_append_drop before.length runs
  generalize runs.take before.length = front at *
  generalize runs.drop before.length = back at *
  rcases last with _ | ⟨⟨first, rest, rfl, rfl⟩, tail⟩
  cases tail
  refine ⟨front ++ [first :: rest ++ [event]], ?_, ?_⟩
  · rw [← flat, ← joined]
    simp
  · refine List.rel_append earlier (.cons ⟨first, rest ++ [event], rfl, ?_⟩ .nil)
    rw [List.foldl_append]
    rfl

end Runs

section View

/-- All that a ledger holds under one key. -/
structure View (Account : Type*) where
  closed : List Account
  opened : Option Account

def Book.view (book : Book Key Account) (key : Key) : View Account :=
  { closed := ofKey key book.closed, opened := book.opened.lookup key }

namespace Rules

/-- A posting opens a new account. -/
def opens (rules : Rules Key Account Event) (opened : Option Account) (event : Event) : Bool :=
  match opened with
  | none => true
  | some account => rules.expired account event

def postView (rules : Rules Key Account Event) (key : Key) (event : Event)
    (view : View Account) : View Account :=
  if rules.opens view.opened event then
    { closed := view.closed ++ view.opened.toList
      opened := some (rules.record (rules.fresh key event) event) }
  else
    { closed := view.closed
      opened := view.opened.map fun account => rules.record account event }

end Rules

variable (rules : Rules Key Account Event) (book : Book Key Account) (key : Key) (event : Event)

/-- A posting acts on what is held under its key as a function of just that. -/
theorem post_view_same :
    (book.post rules key event).view key = rules.postView key event (book.view key) := by
  cases found : book.opened.lookup key with
  | none => simp [Book.post, Book.view, Rules.postView, Rules.opens, found]
  | some account =>
      by_cases expired : rules.expired account event
      · simp [Book.post, Book.view, Rules.postView, Rules.opens, found, expired]
      · simp [Book.post, Book.view, Rules.postView, Rules.opens, found, expired]

theorem post_view_other {other : Key} (different : key ≠ other) :
    (book.post rules key event).view other = book.view other := by
  have symm : other ≠ key := Ne.symm different
  cases found : book.opened.lookup key with
  | none => simp [Book.post, Book.view, found, AList.lookup_insert_ne symm]
  | some account =>
      by_cases expired : rules.expired account event
      · simp [Book.post, Book.view, found, expired, AList.lookup_insert_ne symm,
          AList.lookup_erase_ne symm, of_key_other different]
      · simp [Book.post, Book.view, found, expired, AList.lookup_insert_ne symm]

theorem accounts_eq_view : book.accounts key =
    (book.view key).closed ++ (book.view key).opened.toList := rfl

/-- Everything a posting does to the accounts of its own key. -/
theorem post_accounts_same :
    (book.post rules key event).accounts key =
        book.accounts key ++ [rules.record (rules.fresh key event) event] ∨
      ∃ before account, book.accounts key = before ++ [account] ∧
        (book.post rules key event).accounts key = before ++ [rules.record account event] := by
  rw [accounts_eq_view, accounts_eq_view, post_view_same]
  cases held : (book.view key).opened with
  | none =>
      left
      simp [Rules.postView, Rules.opens, held]
  | some account =>
      by_cases expired : rules.expired account event
      · left
        simp [Rules.postView, Rules.opens, held, expired]
      · right
        exact ⟨(book.view key).closed, account, rfl,
          by simp [Rules.postView, Rules.opens, held, expired]⟩

theorem post_accounts_other {other : Key} (different : key ≠ other) :
    (book.post rules key event).accounts other = book.accounts other := by
  rw [accounts_eq_view, accounts_eq_view, post_view_other rules book key event different]

end View

section Post

variable (rules : Rules Key Account Event) (book : Book Key Account) (key : Key) (event : Event)

theorem post_opened (other : Key) :
    other ∈ (book.post rules key event).opened ↔ other = key ∨ other ∈ book.opened := by
  unfold Book.post
  split
  · exact AList.mem_insert _
  · split_ifs
    · by_cases same : other = key
      · simp [AList.mem_insert, same]
      · simp [AList.mem_insert, AList.mem_erase, same]
    · exact AList.mem_insert _

/-- A posting retires at most one account, and only an expired one of its key. -/
theorem post_closed :
    (book.post rules key event).closed = book.closed ∨
      ∃ account, book.opened.lookup key = some account ∧ rules.expired account event = true ∧
        (book.post rules key event).closed = book.closed ++ [(key, account)] := by
  unfold Book.post
  split
  · exact Or.inl rfl
  · rename_i account found
    split_ifs with expired
    · exact Or.inr ⟨account, found, expired, rfl⟩
    · exact Or.inl rfl

/-- What holds of the accounts holds after a posting, if it holds of those that are started and
is kept by those that are continued. -/
theorem Book.All.post {good : Account → Prop} (all : book.All good)
    (started : good (rules.record (rules.fresh key event) event))
    (continued : ∀ account, book.opened.lookup key = some account →
      rules.expired account event = false → good (rules.record account event)) :
    (book.post rules key event).All good := by
  constructor
  · intro entry member
    rcases post_closed rules book key event with same | ⟨account, found, -, grown⟩
    · rw [same] at member
      exact all.closed entry member
    · rw [grown, List.mem_append, List.mem_singleton] at member
      rcases member with earlier | rfl
      · exact all.closed entry earlier
      · exact all.opened key account found
  · intro other account found
    by_cases different : key ≠ other
    · have view := post_view_other rules book key event different
      exact all.opened other account (((congrArg View.opened view).symm.trans found))
    · obtain rfl := not_ne_iff.mp different
      have view := congrArg View.opened (post_view_same rules book key event)
      rw [Rules.postView] at view
      cases held : book.opened.lookup key with
      | none =>
          simp only [Book.view, held, Rules.opens, if_true] at view
          obtain rfl := Option.some.inj (view.symm.trans found)
          exact started
      | some before =>
          cases expired : rules.expired before event with
          | true =>
              simp only [Book.view, held, Rules.opens, expired, if_true] at view
              obtain rfl := Option.some.inj (view.symm.trans found)
              exact started
          | false =>
              simp only [Book.view, held, Rules.opens, expired, Bool.false_eq_true, if_false,
                Option.map_some] at view
              obtain rfl := Option.some.inj (view.symm.trans found)
              exact continued before held expired

theorem settle_accounts (order : List (Key × Account)) (listed : order.Perm book.entries) :
    (book.settle order).accounts key = book.accounts key := by
  simp only [Book.settle, Book.accounts, of_key_append, AList.lookup_empty, Option.toList_none,
    List.append_nil]
  rw [of_key_perm_entries book.opened key order listed]

end Post

section Totals

def sumOf (weigh : Account → Nat) (entries : List (Key × Account)) : Nat :=
  (entries.map fun entry => weigh entry.2).sum

/-- The weight of all accounts, retired and open. -/
def Book.total (weigh : Account → Nat) (book : Book Key Account) : Nat :=
  sumOf weigh book.closed + sumOf weigh book.entries

variable (weigh : Account → Nat)

def openedSum (table : AList fun _ : Key => Account) : Nat :=
  (table.entries.map fun entry => weigh entry.2).sum

theorem opened_sum_erase (table : AList fun _ : Key => Account) {key : Key} {account : Account}
    (found : table.lookup key = some account) :
    openedSum weigh table = weigh account + openedSum weigh (table.erase key) := by
  have member : key ∈ table.entries.keys :=
    List.dlookup_isSome.mp (by rw [show table.entries.dlookup key = some account from found]; rfl)
  obtain ⟨stored, before, after, absent, split, erased⟩ := List.exists_of_kerase member
  have sameAccount : stored = account := by
    have located : table.entries.dlookup key = some stored := by
      rw [split, List.dlookup_append, List.dlookup_eq_none.mpr absent]
      simp
    exact Option.some.inj (located.symm.trans found)
  have remaining : (table.erase key).entries = before ++ after := erased
  unfold openedSum
  rw [remaining, split, sameAccount]
  simp only [List.map_append, List.map_cons, List.sum_append, List.sum_cons]
  omega

theorem erase_entries (table : AList fun _ : Key => Account) (key : Key) :
    (table.erase key).entries = table.entries.kerase key := rfl

theorem opened_sum_insert (table : AList fun _ : Key => Account) (key : Key) (account : Account) :
    openedSum weigh (table.insert key account) =
      weigh account + openedSum weigh (table.erase key) := by
  simp [openedSum, AList.insert, erase_entries, List.kinsert]

theorem opened_sum_erase_absent (table : AList fun _ : Key => Account) {key : Key}
    (absent : table.lookup key = none) :
    openedSum weigh (table.erase key) = openedSum weigh table := by
  have missing : key ∉ table.entries.keys := List.dlookup_eq_none.mp absent
  simp [openedSum, erase_entries, List.kerase_of_notMem_keys missing]

theorem total_eq (book : Book Key Account) :
    book.total weigh = sumOf weigh book.closed + openedSum weigh book.opened := by
  simp [Book.total, Book.entries, sumOf, openedSum, Function.comp_def]

theorem post_total (rules : Rules Key Account Event) (cost : Event → Nat)
    (fresh : ∀ key event, weigh (rules.fresh key event) = 0)
    (record : ∀ account event, weigh (rules.record account event) = weigh account + cost event)
    (book : Book Key Account) (key : Key) (event : Event) :
    (book.post rules key event).total weigh = book.total weigh + cost event := by
  rw [total_eq, total_eq]
  cases found : book.opened.lookup key with
  | none =>
      simp only [Book.post, found]
      rw [opened_sum_insert, opened_sum_erase_absent weigh _ found, record, fresh]
      omega
  | some account =>
      have split := opened_sum_erase weigh book.opened found
      by_cases expired : rules.expired account event
      · have gone : (book.opened.erase key).lookup key = none := AList.lookup_erase key _
        simp only [Book.post, found, expired, if_true]
        rw [opened_sum_insert, opened_sum_erase_absent weigh _ gone, record, fresh]
        simp only [sumOf, List.map_append, List.sum_append, List.map_cons, List.map_nil,
          List.sum_cons, List.sum_nil]
        omega
      · simp only [Book.post, found, expired]
        rw [if_neg (by simp), opened_sum_insert, record]
        simp only
        omega

theorem settle_total (book : Book Key Account) (order : List (Key × Account))
    (listed : order.Perm book.entries) :
    (book.settle order).total weigh = book.total weigh := by
  have sameSum : sumOf weigh order = sumOf weigh book.entries := (listed.map _).sum_eq
  simp [Book.total, Book.settle, Book.entries, sumOf] at sameSum ⊢
  omega

end Totals

/-- The ledgers that postings and settlements lead to, with everything posted so far. -/
inductive Run (rules : Rules Key Account Event) :
    List (Key × Event) → Book Key Account → Prop where
  | start : Run rules [] Book.empty
  | post {history : List (Key × Event)} {book : Book Key Account} (run : Run rules history book)
      (key : Key) (event : Event) :
      Run rules (history ++ [(key, event)]) (book.post rules key event)
  | settle {history : List (Key × Event)} {book : Book Key Account}
      (run : Run rules history book) (order : List (Key × Account))
      (listed : order.Perm book.entries) : Run rules history (book.settle order)

section Run

variable {rules : Rules Key Account Event} {history : List (Key × Event)}
  {book : Book Key Account}

/-- The accounts of a key cut the events posted to it into consecutive runs. -/
theorem run_cuts (run : Run rules history book) (key : Key) :
    Cuts rules key (ofKey key history) (book.accounts key) := by
  induction run with
  | start => exact ⟨[], rfl, .nil⟩
  | post run posted event ih =>
      by_cases same : posted = key
      · subst same
        rw [of_key_append, of_key_same]
        rcases post_accounts_same rules _ posted event with started | ⟨before, account, split, after⟩
        · rw [started]
          exact ih.start event
        · rw [after]
          exact (split ▸ ih).extend event
      · rw [of_key_append, of_key_other same, List.append_nil, post_accounts_other _ _ _ _ same]
        exact ih
  | settle run order listed ih =>
      rw [settle_accounts _ key order listed]
      exact ih

theorem run_total (weigh : Account → Nat) (cost : Event → Nat)
    (fresh : ∀ key event, weigh (rules.fresh key event) = 0)
    (record : ∀ account event, weigh (rules.record account event) = weigh account + cost event)
    (run : Run rules history book) :
    book.total weigh = (history.map fun entry => cost entry.2).sum := by
  induction run with
  | start => rfl
  | post run key event ih =>
      rw [post_total weigh rules cost fresh record, ih]
      simp
  | settle run order listed ih => rw [settle_total weigh _ order listed, ih]

/-- The accounts of a key weigh what was posted to it, and there are none if nothing was. -/
theorem run_key_total (weigh : Account → Nat) (cost : Event → Nat)
    (fresh : ∀ key event, weigh (rules.fresh key event) = 0)
    (record : ∀ account event, weigh (rules.record account event) = weigh account + cost event)
    (run : Run rules history book) (key : Key) :
    ((book.accounts key).map weigh).sum = ((ofKey key history).map cost).sum ∧
      (book.accounts key = [] ↔ ofKey key history = []) := by
  have folded : ∀ (events : List Event) (account : Account),
      weigh (events.foldl rules.record account) = weigh account + (events.map cost).sum := by
    intro events
    induction events with
    | nil => simp
    | cons event events ih =>
        intro account
        rw [List.foldl_cons, ih, record, List.map_cons, List.sum_cons, Nat.add_assoc]
  obtain ⟨runs, flat, records⟩ := run_cuts run key
  rw [← flat]
  clear flat
  generalize book.accounts key = accounts at records ⊢
  induction records with
  | nil => simp
  | @cons events account runs accounts recorded _ ih =>
      obtain ⟨first, rest, rfl, rfl⟩ := recorded
      refine ⟨?_, by simp⟩
      rw [List.map_cons, List.sum_cons, folded, fresh, Nat.zero_add, ih.1, List.flatten_cons,
        List.map_append, List.sum_append]

/-- Only keys that were posted to have an open account. -/
theorem run_opened (run : Run rules history book) {key : Key} (member : key ∈ book.opened) :
    ∃ event, (key, event) ∈ history := by
  induction run with
  | start => exact absurd member (AList.notMem_empty key)
  | post run posted event ih =>
      rcases (post_opened rules _ posted event _).mp member with same | earlier
      · exact ⟨event, by simp [same]⟩
      · obtain ⟨before, seen⟩ := ih earlier
        exact ⟨before, List.mem_append_left _ seen⟩
  | settle run order listed ih => exact absurd member (AList.notMem_empty key)

end Run

end Ledger
