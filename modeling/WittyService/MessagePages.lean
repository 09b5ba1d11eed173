import WittyService.KeysetPages
import WittyService.MessageAssembly

/-! `get_messages_with_events` and a client that reads a session page by page. Times are in
microseconds, and a cursor names the time of a row exactly. -/
namespace WittyService

open KeysetPages

structure MessageOrm where
  sessionId : String
  record : MessageRecord ℤ

structure MessageEventOrm where
  messageId : Option String
  seqNo : ℕ
  createdAt : ℤ
  event : StreamEvent

structure MessageTables where
  messages : List MessageOrm
  events : List MessageEventOrm

def MessageOrm.createdAt (m : MessageOrm) : ℤ := m.record.createdAt

namespace MessageTables

variable (add : Json → Json → Json) (t : MessageTables)

def selected (sessionId : String) (before : Option ℤ) : List MessageOrm :=
  t.messages.filter fun m => m.sessionId = sessionId && before.all (m.createdAt < ·)

/-- The rows of one page, and whether there are more. The order of the query is by
`created_at` alone, so `order` settles how rows of one time stand. -/
def messagePage (order : List MessageOrm → List MessageOrm) (sessionId : String) (limit : ℕ)
    (before : Option ℤ) : List MessageOrm × Bool :=
  let messages := (order (t.selected sessionId before)).take (limit + 1)
  ((messages.take limit).reverse, messages.length > limit)

/-- The events of some messages, in `seq_no` order. -/
def eventsOf (messageIds : List String) : List MessageEventOrm :=
  KeyOrder.sortBy MessageEventOrm.seqNo
    (t.events.filter fun e => e.messageId.any (· ∈ messageIds))

def assemble (msg : MessageOrm) (allEvents : List MessageEventOrm) :
    Option (RenderedMessage ℤ) :=
  assembleMessage add msg.record
    ((allEvents.filter fun e => e.messageId = some msg.record.id).map
      fun e => (e.createdAt, e.event))

def getMessagesWithEvents (order : List MessageOrm → List MessageOrm) (sessionId : String)
    (limit : ℕ) (before : Option ℤ) : Option (List (RenderedMessage ℤ) × Bool) :=
  let (messages, hasMore) := t.messagePage order sessionId limit before
  if messages.isEmpty then some ([], false)
  else
    let allEvents := t.eventsOf (messages.map fun m => m.record.id)
    (messages.mapM fun msg => assemble add msg allEvents).map fun result => (result, hasMore)

/-- Pages until one is empty, the time of the oldest message being the next cursor. `orders`
has the order of ties for each call, and the fuel bounds the number of calls. -/
def readPages (orders : ℕ → List MessageOrm → List MessageOrm) (sessionId : String)
    (limit : ℕ) : ℕ → Option ℤ → Option (List (List (RenderedMessage ℤ)))
  | 0, _ => none
  | n + 1, before =>
    match t.getMessagesWithEvents add (orders n) sessionId limit before with
    | none => none
    | some ([], _) => some []
    | some (oldest :: page, _) =>
      (readPages orders sessionId limit n (some oldest.timestamp)).map ((oldest :: page) :: ·)

def rendered (msg : MessageOrm) : Option (RenderedMessage ℤ) :=
  assemble add msg (t.eventsOf [msg.record.id])

/-- The messages of the pages are those of the session, each once and in the order of their
times. -/
def Complete (sessionId : String) (pages : List (List (RenderedMessage ℤ))) : Prop :=
  ∃ rows : List MessageOrm, rows.Perm (t.selected sessionId none) ∧
    rows.Pairwise (fun a b => a.createdAt ≤ b.createdAt) ∧
    rows.map (t.rendered add) = (joined pages).map some

end MessageTables

section Page

variable {add : Json → Json → Json} {t : MessageTables}

open MessageTables

variable {msg : MessageOrm} {α β : Type*}

theorem assemble_page {messageIds : List String} (h : msg.record.id ∈ messageIds) :
    assemble add msg (t.eventsOf messageIds) = t.rendered add msg := by
  have hsame : ∀ ids : List String, msg.record.id ∈ ids →
      (t.events.filter fun e => e.messageId.any (· ∈ ids)).filter
          (fun e => e.messageId = some msg.record.id) =
        t.events.filter fun e => e.messageId = some msg.record.id := by
    intro ids hids
    rw [List.filter_filter]
    apply List.filter_congr
    intro e _
    by_cases he : e.messageId = some msg.record.id
    · simp [he, hids]
    · simp [he]
  unfold rendered assemble eventsOf
  rw [KeyOrder.filter_sortBy, KeyOrder.filter_sortBy, hsame messageIds h,
    hsame [msg.record.id] List.mem_cons_self]

theorem rendered_timestamp {r : RenderedMessage ℤ}
    (h : t.rendered add msg = some r) : r.timestamp = msg.createdAt := by
  obtain ⟨s, -, rfl⟩ := Option.map_eq_some_iff.mp h
  rfl

theorem mapM_eq_some {f : α → Option β} {l : List α} {result : List β} :
    l.mapM f = some result ↔ l.map f = result.map some := by
  induction l generalizing result with
  | nil => cases result <;> simp
  | cons a l ih =>
    rw [List.mapM_cons, List.map_cons]
    cases hf : f a with
    | none => cases result <;> simp
    | some c =>
      cases result with
      | nil => cases hl : List.mapM f l <;> simp
      | cons b result =>
        simp only [Option.bind_eq_bind, Option.bind_some, List.map_cons, List.cons.injEq,
          Option.some.injEq]
        rw [← ih]
        cases List.mapM f l <;> simp

theorem exists_mapM {f : α → Option β} {l : List α}
    (h : ∀ a ∈ l, (f a).isSome) : ∃ result, l.mapM f = some result := by
  induction l with
  | nil => exact ⟨[], rfl⟩
  | cons a l ih =>
    obtain ⟨ha, hl⟩ := List.forall_mem_cons.mp h
    obtain ⟨b, hb⟩ := Option.isSome_iff_exists.mp ha
    obtain ⟨result, hresult⟩ := ih hl
    exact ⟨b :: result, mapM_eq_some.mpr (by simp [hb, mapM_eq_some.mp hresult])⟩

section

variable {order : List MessageOrm → List MessageOrm} {sessionId : String} {limit : ℕ}
  {before : Option ℤ}

theorem messagePage_fst : (t.messagePage order sessionId limit before).1 =
      ((order (t.selected sessionId before)).take limit).reverse := by
  simp [messagePage, List.take_take]

theorem getMessagesWithEvents_eq :
    (t.getMessagesWithEvents add order sessionId limit before).map Prod.fst =
      (t.messagePage order sessionId limit before).1.mapM (t.rendered add) := by
  unfold getMessagesWithEvents
  generalize t.messagePage order sessionId limit before = page
  obtain ⟨messages, hasMore⟩ := page
  dsimp only
  split_ifs with hempty
  · rw [List.isEmpty_iff.mp hempty]
    rfl
  · have hassemble : messages.mapM (fun msg =>
        assemble add msg (t.eventsOf (messages.map fun m => m.record.id))) =
        messages.mapM (t.rendered add) := by
      have hmap : messages.map (fun msg =>
          assemble add msg (t.eventsOf (messages.map fun m => m.record.id))) =
          messages.map (t.rendered add) := by
        apply List.map_congr_left
        intro msg hmsg
        exact assemble_page (List.mem_map_of_mem (f := fun m => m.record.id) hmsg)
      apply Option.ext
      intro result
      rw [mapM_eq_some, mapM_eq_some, hmap]
    rw [hassemble, Option.map_map]
    exact Option.map_id'

end

end Page

section Reading

variable {add : Json → Json → Json} {t : MessageTables} {sessionId : String} {limit : ℕ}
  {orders : ℕ → List MessageOrm → List MessageOrm}

open MessageTables

variable {before : Option ℤ}

theorem selected_below {msg : MessageOrm} (h : msg ∈ t.selected sessionId before) :
    (t.selected sessionId before).filter (fun m => m.createdAt < msg.createdAt) =
      t.selected sessionId (some msg.createdAt) := by
  unfold selected at h ⊢
  rw [List.filter_filter]
  apply List.filter_congr
  intro m _
  have hmsg := (List.mem_filter.mp h).2
  cases before with
  | none => simp [Bool.and_comm]
  | some cursor =>
    simp only [Option.all_some, Bool.and_eq_true, decide_eq_true_eq] at hmsg
    by_cases hlt : m.createdAt < msg.createdAt
    · have hcursor : m.createdAt < cursor := hlt.trans hmsg.2
      simp [hlt, hcursor]
    · simp [hlt]

section

variable {order : List MessageOrm → List MessageOrm} {before : Option ℤ}

variable {more : Bool}

theorem page_cases {result : List (RenderedMessage ℤ)}
    (h : t.getMessagesWithEvents add order sessionId limit before = some (result, more)) :
    ((order (t.selected sessionId before)).take limit).reverse.map (t.rendered add) =
      result.map some := by
  have hfst : (t.getMessagesWithEvents add order sessionId limit before).map Prod.fst = _ :=
    getMessagesWithEvents_eq
  rw [h, messagePage_fst] at hfst
  exact mapM_eq_some.mp hfst.symm

theorem page_last (horder : ∀ rows, Falling MessageOrm.createdAt rows (order rows))
    {oldest : RenderedMessage ℤ} {page : List (RenderedMessage ℤ)}
    (h : t.getMessagesWithEvents add order sessionId limit before =
      some (oldest :: page, more)) :
    ∃ last, ((order (t.selected sessionId before)).take limit).getLast? = some last ∧
      last ∈ t.selected sessionId before ∧ t.rendered add last = some oldest := by
  have hpage := page_cases h
  cases hreverse : ((order (t.selected sessionId before)).take limit).reverse with
  | nil =>
    rw [hreverse] at hpage
    cases hpage
  | cons last older =>
    rw [hreverse] at hpage
    have hlast : ((order (t.selected sessionId before)).take limit).getLast? = some last := by
      rw [List.getLast?_eq_head?_reverse, hreverse]
      rfl
    refine ⟨last, hlast, ?_, (List.cons.inj hpage).1⟩
    apply (horder _).perm.subset
    exact List.mem_of_mem_take (List.mem_of_getLast? hlast)

theorem page_nil (hlimit : 1 ≤ limit)
    (horder : ∀ rows, Falling MessageOrm.createdAt rows (order rows))
    (h : t.getMessagesWithEvents add order sessionId limit before = some ([], more)) :
    t.selected sessionId before = [] := by
  have hpage := page_cases h
  simp only [List.map_nil, List.map_eq_nil_iff, List.reverse_eq_nil_iff,
    List.take_eq_nil_iff] at hpage
  have hperm := (horder (t.selected sessionId before)).perm
  rcases hpage with hzero | hnil
  · omega
  · rw [hnil] at hperm
    exact List.nil_perm.mp hperm

end

theorem readPages_paged (hlimit : 1 ≤ limit)
    (horders : ∀ n rows, Falling MessageOrm.createdAt rows (orders n rows))
    {n : ℕ} {pages : List (List (RenderedMessage ℤ))}
    (h : t.readPages add orders sessionId limit n before = some pages) :
    ∃ rowPages, Paged MessageOrm.createdAt limit (t.selected sessionId before) rowPages ∧
      (joined rowPages).map (t.rendered add) = (joined pages).map some := by
  induction n generalizing before pages with
  | zero => cases h
  | succ n ih =>
    rw [readPages] at h
    split at h
    · cases h
    · rename_i hget
      cases h
      rw [page_nil hlimit (horders n) hget]
      exact ⟨[], Paged.done, rfl⟩
    · rename_i oldest page more hget
      obtain ⟨rest, hrest, rfl⟩ := Option.map_eq_some_iff.mp h
      obtain ⟨rowPages, hpaged, hjoined⟩ := ih hrest
      obtain ⟨last, hlast, hmem, hrendered⟩ := page_last (horders n) hget
      rw [rendered_timestamp hrendered, ← selected_below hmem] at hpaged
      refine ⟨_ :: rowPages, Paged.page (horders n _) hlast hpaged, ?_⟩
      rw [joined_cons, joined_cons, List.map_append, List.map_append, hjoined, page_cases hget]

theorem exists_readPages (horders : ∀ n rows, Falling MessageOrm.createdAt rows (orders n rows))
    (hrendered : ∀ m ∈ t.selected sessionId none, (t.rendered add m).isSome)
    {n : ℕ} (h : (t.selected sessionId before).length < n) :
    ∃ pages, t.readPages add orders sessionId limit n before = some pages := by
  induction n generalizing before with
  | zero => omega
  | succ n ih =>
    have hall : ∀ m ∈ (t.messagePage (orders n) sessionId limit before).1,
        (t.rendered add m).isSome := by
      intro m hm
      rw [messagePage_fst, List.mem_reverse] at hm
      have hselected := (horders n _).perm.subset (List.mem_of_mem_take hm)
      apply hrendered m
      have hsession := (List.mem_filter.mp hselected).2
      rw [Bool.and_eq_true] at hsession
      apply List.mem_filter.mpr
      exact ⟨(List.mem_filter.mp hselected).1, by simpa using hsession.1⟩
    rw [readPages]
    split
    · rename_i hget
      exfalso
      have hfst : (t.getMessagesWithEvents add (orders n) sessionId limit before).map Prod.fst =
        _ := getMessagesWithEvents_eq
      rw [hget] at hfst
      obtain ⟨result, hresult⟩ := exists_mapM hall
      rw [hresult] at hfst
      cases hfst
    · exact ⟨[], rfl⟩
    · rename_i oldest page more hget
      obtain ⟨last, -, hmem, hlast⟩ := page_last (horders n) hget
      have hfewer : (t.selected sessionId (some oldest.timestamp)).length <
          (t.selected sessionId before).length := by
        rw [rendered_timestamp hlast, ← selected_below hmem]
        apply List.length_filter_lt_length_iff_exists.mpr
        exact ⟨last, hmem, by simp⟩
      obtain ⟨pages, hpages⟩ := @ih (some oldest.timestamp) (by omega)
      exact ⟨_, by rw [hpages]; rfl⟩

/-- A client gets every message once and in order exactly when each can be assembled and no
page ends between two messages of one time. -/
theorem paging_complete_iff (add : Json → Json → Json) (t : MessageTables) (sessionId : String)
    (limit : ℕ) (hlimit : 1 ≤ limit) (orders : ℕ → List MessageOrm → List MessageOrm)
    (horders : ∀ n rows, Falling MessageOrm.createdAt rows (orders n rows))
    (n : ℕ) (hn : (t.selected sessionId none).length < n) :
    (∃ pages, t.readPages add orders sessionId limit n none = some pages ∧
        t.Complete add sessionId pages) ↔
      (∀ m ∈ t.selected sessionId none, (t.rendered add m).isSome) ∧
        Untied MessageOrm.createdAt limit (t.selected sessionId none) := by
  constructor
  · rintro ⟨pages, hread, rows, hperm, -, hrows⟩
    obtain ⟨rowPages, hpaged, hjoined⟩ := readPages_paged hlimit horders hread
    constructor
    · intro m hm
      have hmap := List.mem_map_of_mem (f := t.rendered add) (hperm.symm.subset hm)
      rw [hrows] at hmap
      obtain ⟨r, -, hr⟩ := List.mem_map.mp hmap
      rw [← hr]
      rfl
    · apply hpaged.perm_iff.mp
      apply hpaged.subperm.perm_of_length_le
      have hlength := congrArg List.length (hrows.trans hjoined.symm)
      rw [List.length_map, List.length_map] at hlength
      rw [← hperm.length_eq, hlength]
  · rintro ⟨hrendered, huntied⟩
    obtain ⟨pages, hread⟩ := exists_readPages horders hrendered hn
    obtain ⟨rowPages, hpaged, hjoined⟩ := readPages_paged hlimit horders hread
    exact ⟨pages, hread, joined rowPages, hpaged.perm_iff.mpr huntied, hpaged.rises, hjoined⟩

end Reading

def twoMessages (first second : ℤ) : MessageTables where
  messages := [
    ⟨"s", ⟨"m1", "user", "hello", .completed, first⟩⟩,
    ⟨"s", ⟨"m2", "assistant", "hi", .completed, second⟩⟩]
  events := []

def newestFirst (rows : List MessageOrm) : List MessageOrm :=
  (KeyOrder.sortBy MessageOrm.createdAt rows).reverse

theorem distinct_times_complete :
    ∃ pages, (twoMessages 1 2).readPages (fun a _ => a) (fun _ => newestFirst) "s" 1 3 none =
      some pages ∧ (twoMessages 1 2).Complete (fun a _ => a) "s" pages := by
  apply (paging_complete_iff _ _ _ 1 (by decide) _ (fun _ rows => falling_sortBy rows) 3
    (by decide)).mpr
  constructor
  · intro m hm
    have hm' : m ∈ (twoMessages 1 2).messages := (List.mem_filter.mp hm).1
    rcases List.mem_cons.mp hm' with rfl | hm'
    · rfl
    · rfl
  · have hkeys : fallingKeys MessageOrm.createdAt ((twoMessages 1 2).selected "s" none) =
        [2, 1] := by decide
    intro k hk a ha b hb
    rw [hkeys] at ha hb
    obtain ⟨j, rfl⟩ := Nat.exists_eq_add_of_le hk
    cases j with
    | zero =>
      cases ha
      cases hb
      decide
    | succ j =>
      rw [List.getElem?_eq_none (by simp; omega)] at hb
      cases hb

/-- Of two messages of one time the second page has none. -/
theorem equal_times_lost : ¬ ∀ (add : Json → Json → Json) (t : MessageTables)
    (sessionId : String) (limit : ℕ), 1 ≤ limit →
    ∀ orders : ℕ → List MessageOrm → List MessageOrm,
    (∀ n rows, Falling MessageOrm.createdAt rows (orders n rows)) →
    ∀ n, (t.selected sessionId none).length < n →
    ∃ pages, t.readPages add orders sessionId limit n none = some pages ∧
      t.Complete add sessionId pages := by
  intro h
  obtain ⟨pages, hread, rows, hperm, -, hrows⟩ := h (fun a _ => a) (twoMessages 1 1) "s" 1
    (by decide) (fun _ => newestFirst) (fun _ rows => falling_sortBy rows) 3 (by decide)
  have hlength : ((twoMessages 1 1).readPages (fun a _ => a) (fun _ => newestFirst) "s" 1 3
      none).map (fun pages => (joined pages).length) = some 1 := by rfl
  have hcount := congrArg List.length hrows
  rw [List.length_map, List.length_map, hperm.length_eq] at hcount
  rw [hread, Option.map_some, ← hcount] at hlength
  exact absurd hlength (by decide)

end WittyService
