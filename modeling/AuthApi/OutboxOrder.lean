import AuthApi.Outbox

/-!
# The order of the stream

Numbers are drawn before the commit, so a relay may see a later event
first. It stores no event of a group before an earlier one as long as the
events a group has under way are all of one transaction: then whatever is
committed later has a later number too (`Draws`), and a relay that has read
an event has read, or finds stored, what comes before it (`OutboxPc.Ok`).

The events of one user are such a group if its transactions record them
one after the other (`user_events_in_order`). When all events are
committed before the run, all of them are one group
(`stream_prefix_of_events`).
-/

namespace AuthApi

open Conc Pg
open scoped List

section Order

variable {α : Type} {group : Uuid → α} {s s' : OutboxState} {pc pc' : OutboxPc} {i n : Nat}
  {row : OutboxRow}

/-! ## Numbers -/

/-- Event `m` is of the same group as event `n`, and comes before it. -/
def OutboxState.Before (s : OutboxState) (group : Uuid → α) (m n : Nat) : Prop :=
  ∃ row row', s.outbox.committed m = some row ∧ s.outbox.committed n = some row' ∧
    group row.userId = group row'.userId ∧ m < n

/-- The numbers drawn so far: an event under way comes after those of its
group that are committed, and the ones of a group are of one transaction. -/
structure Draws (group : Uuid → α) (s : OutboxState) : Prop where
  numbered : ∀ n row, s.outbox.committed n = some row → n < s.nextSeq
  drawn : ∀ i n row, s.outbox.pending i n = some row →
    n < s.nextSeq ∧ row.published = false ∧ s.outbox.committed n = none
  later : ∀ i n row, s.outbox.pending i n = some row → ∀ m row', s.outbox.committed m = some row' →
    group row'.userId = group row.userId → m < n
  alone : ∀ i j m n row row', s.outbox.pending i m = some row → s.outbox.pending j n = some row' →
    group row.userId = group row'.userId → i = j

/-- A step that commits no event and stores none. -/
structure OutboxKeeps (s s' : OutboxState) : Prop where
  known : ∀ n, (s.outbox.committed n).isSome → (s'.outbox.committed n).isSome
  committed : ∀ n row', s'.outbox.committed n = some row' → ∃ row, s.outbox.committed n = some row ∧
    row.userId = row'.userId ∧ (row'.published = true → row.published = true ∨ n ∈ s.stream)
  sent : s'.sent = s.sent
  stream : s'.stream = s.stream

/-- What the relays rely on: nothing is committed that comes before an event
that is there. -/
structure Extends (group : Uuid → α) (s s' : OutboxState) : Prop where
  known : ∀ n, (s.outbox.committed n).isSome → (s'.outbox.committed n).isSome
  before : ∀ m n, (s.outbox.committed n).isSome → s'.Before group m n → s.Before group m n
  stream : ∀ n ∈ s.stream, n ∈ s'.stream

theorem OutboxKeeps.of_committed (h : ∀ n, s'.outbox.committed n = s.outbox.committed n)
    (hsent : s'.sent = s.sent) (hstream : s'.stream = s.stream) : OutboxKeeps s s' :=
  ⟨fun n hn => by rwa [h n], fun n row hrow => ⟨row, (h n).symm.trans hrow, rfl, .inl⟩, hsent,
    hstream⟩

theorem OutboxKeeps.extends (h : OutboxKeeps s s') : Extends group s s' where
  known := h.known
  before m n _ := by
    rintro ⟨row, row', hm, hn, hgroup, hlt⟩
    obtain ⟨old, hold, huser, -⟩ := h.committed m row hm
    obtain ⟨old', hold', huser', -⟩ := h.committed n row' hn
    exact ⟨old, old', hold, hold', by rw [huser, huser', hgroup], hlt⟩
  stream n hn := h.stream ▸ hn

theorem Draws.keep (h : Draws group s) (hk : OutboxKeeps s s') (hseq : s'.nextSeq = s.nextSeq)
    (hpending : ∀ i n row, s'.outbox.pending i n = some row → s.outbox.pending i n = some row) :
    Draws group s' where
  numbered n row hrow := by
    obtain ⟨old, hold, -⟩ := hk.committed n row hrow
    rw [hseq]
    exact h.numbered n old hold
  drawn i n row hrow := by
    obtain ⟨hlt, hunpublished, hnone⟩ := h.drawn i n row (hpending i n row hrow)
    refine ⟨hseq ▸ hlt, hunpublished, Option.eq_none_iff_forall_ne_some.mpr fun row' hrow' => ?_⟩
    obtain ⟨old, hold, -⟩ := hk.committed n row' hrow'
    rw [hnone] at hold
    cases hold
  later i n row hrow m row' hrow' hgroup := by
    obtain ⟨old, hold, huser, -⟩ := hk.committed m row' hrow'
    exact h.later i n row (hpending i n row hrow) m old hold (by rw [huser, hgroup])
  alone i j m n row row' hrow hrow' :=
    h.alone i j m n row row' (hpending i m row hrow) (hpending j n row' hrow')

/-- The events of a group that others have under way. -/
def OutboxState.GroupBusy (s : OutboxState) (group : Uuid → α) (i : Nat) (userId : Uuid) : Prop :=
  ∃ n ∈ s.outbox.keys, ∃ l ∈ (s.outbox.slot n).lock, l.1 ≠ i ∧
    ∃ row ∈ l.2, group row.userId = group userId

theorem Draws.insert (h : Draws group s) (hseq : row.seq = s.nextSeq)
    (hfresh : row.published = false) (halone : ¬ s.GroupBusy group i row.userId)
    (hinsert : s.outbox.insert i row = some s'.outbox) (hnext : s'.nextSeq = s.nextSeq + 1) :
    Draws group s' := by
  have hchanged := Db.changed_insert hinsert
  have hcases : ∀ j n row', s'.outbox.pending j n = some row' →
      j = i ∧ n = row.seq ∧ row' = row ∨ s.outbox.pending j n = some row' := by
    intro j n row' hrow'
    by_cases hji : j = i
    · subst hji
      rcases hchanged.pending_cases hrow' with ⟨hn, hnew⟩ | hold
      · exact .inl ⟨rfl, hn, (Option.some.inj hnew).symm⟩
      · exact .inr hold
    · exact .inr ((hchanged.others j n hji).symm.trans hrow')
  -- Nobody else has an event of the group.
  have hother : ∀ j n row', s.outbox.pending j n = some row' →
      group row'.userId = group row.userId → j = i := by
    intro j n row' hrow' hgroup
    by_contra hji
    have hlock := Slot.pending_eq_some.mp hrow'
    exact halone ⟨n, Db.mem_keys (.inr ⟨j, hlock⟩), _, hlock, hji, row', rfl, hgroup⟩
  refine ⟨fun n row' hrow' => ?_, fun j n row' hrow' => ?_, fun j n row' hrow' m old hold => ?_,
    fun j j' m n r r' hr hr' hgroup => ?_⟩
  · rw [hchanged.committed] at hrow'
    rw [hnext]
    exact Nat.lt_succ_of_lt (h.numbered n row' hrow')
  · rw [hchanged.committed, hnext]
    rcases hcases j n row' hrow' with ⟨-, rfl, rfl⟩ | hbefore
    · refine ⟨by omega, hfresh, Option.eq_none_iff_forall_ne_some.mpr fun old hold => ?_⟩
      exact absurd (h.numbered _ old hold) (by omega)
    · obtain ⟨hlt, hrest⟩ := h.drawn j n row' hbefore
      exact ⟨Nat.lt_succ_of_lt hlt, hrest⟩
  · rw [hchanged.committed] at hold
    rcases hcases j n row' hrow' with ⟨-, rfl, -⟩ | hbefore
    · exact fun _ => hseq ▸ h.numbered m old hold
    · exact h.later j n row' hbefore m old hold
  · rcases hcases j m r hr with ⟨rfl, -, rfl⟩ | hbefore <;>
      rcases hcases j' n r' hr' with ⟨rfl, -, rfl⟩ | hbefore'
    · rfl
    · exact (hother j' n r' hbefore' hgroup.symm).symm
    · exact hother j m r hbefore hgroup
    · exact h.alone j j' m n r r' hbefore hbefore' hgroup

section Commit

variable (houtbox : s'.outbox = s.outbox.commit i)

include houtbox

theorem Draws.commit_cases {n : Nat} {row : OutboxRow} (hrow : s'.outbox.committed n = some row) :
    s.outbox.pending i n = some row ∨ s.outbox.committed n = some row := by
  rw [houtbox, Db.commit_view] at hrow
  exact (Db.view_cases hrow).imp_right And.right

theorem Draws.commit (h : Draws group s) (hseq : s'.nextSeq = s.nextSeq) : Draws group s' := by
  have hpending : ∀ j n row, s'.outbox.pending j n = some row →
      j ≠ i ∧ s.outbox.pending j n = some row := by
    intro j n row hrow
    rw [houtbox, Db.commit_pending] at hrow
    split at hrow
    · cases hrow
    · rename_i hji
      exact ⟨hji, hrow⟩
  refine ⟨fun n row hrow => ?_, fun j n row hrow => ?_, fun j n row hrow m row' hrow' hgroup => ?_,
    fun j j' m n r r' hr hr' =>
      h.alone j j' m n r r' (hpending j m r hr).2 (hpending j' n r' hr').2⟩
  · rw [hseq]
    rcases commit_cases houtbox hrow with hown | hold
    · exact (h.drawn i n row hown).1
    · exact h.numbered n row hold
  · obtain ⟨hji, hbefore⟩ := hpending j n row hrow
    obtain ⟨hlt, hunpublished, hnone⟩ := h.drawn j n row hbefore
    refine ⟨hseq ▸ hlt, hunpublished, Option.eq_none_iff_forall_ne_some.mpr fun row' hrow' => ?_⟩
    rcases commit_cases houtbox hrow' with hown | hold
    · exact hji (Db.pending_unique hbefore hown)
    · rw [hnone] at hold
      cases hold
  · obtain ⟨hji, hbefore⟩ := hpending j n row hrow
    rcases commit_cases houtbox hrow' with hown | hold
    · exact absurd (h.alone j i n m row row' hbefore hown hgroup.symm) hji
    · exact h.later j n row hbefore m row' hold hgroup

theorem Draws.commit_extends (h : Draws group s) (hstream : s'.stream = s.stream) :
    Extends group s s' where
  known n hn := by
    rw [houtbox, Db.commit_view]
    exact Db.view_isSome_of_committed i hn
  before m n hn := by
    rintro ⟨row, row', hm, hrow', hgroup, hlt⟩
    obtain ⟨old, hold⟩ := Option.isSome_iff_exists.mp hn
    have hsame : s.outbox.committed n = some row' := by
      refine (commit_cases houtbox hrow').resolve_left fun hown => ?_
      rw [(h.drawn i n row' hown).2.2] at hold
      cases hold
    rcases commit_cases houtbox hm with hown | hbefore
    · have hafter := h.later i m row hown n row' hsame hgroup.symm
      omega
    · exact ⟨row, row', hbefore, hsame, hgroup, hlt⟩
  stream n hn := hstream ▸ hn

end Commit

/-! ## What is stored -/

/-- What was sent is there, with all that comes before it stored. -/
structure Stored (group : Uuid → α) (s : OutboxState) : Prop where
  ready : ∀ n ∈ s.sent, (s.outbox.committed n).isSome ∧ ∀ m, s.Before group m n → m ∈ s.stream
  sent : ∀ n ∈ s.stream, n ∈ s.sent
  once : s.stream.Nodup
  order : ∀ m n, n ∈ s.stream → s.Before group m n → [m, n] <+ s.stream
  published : ∀ n row, s.outbox.committed n = some row → row.published = true → n ∈ s.stream

theorem Stored.extend (h : Stored group s) (hext : Extends group s s') (hsent : s'.sent = s.sent)
    (hstream : s'.stream = s.stream)
    (hpublished : ∀ n row, s'.outbox.committed n = some row → row.published = true → n ∈ s.stream) :
    Stored group s' where
  ready n hn := by
    obtain ⟨hknown, hbefore⟩ := h.ready n (hsent ▸ hn)
    exact ⟨hext.known n hknown, fun m hm => hstream ▸ hbefore m (hext.before m n hknown hm)⟩
  sent n hn := hsent ▸ h.sent n (hstream ▸ hn)
  once := hstream ▸ h.once
  order m n hn hm := by
    rw [hstream] at hn ⊢
    exact h.order m n hn (hext.before m n (h.ready n (h.sent n hn)).1 hm)
  published := hstream ▸ hpublished

theorem Stored.keep (h : Stored group s) (hk : OutboxKeeps s s') : Stored group s' := by
  refine h.extend hk.extends hk.sent hk.stream fun n row hrow hpublished => ?_
  obtain ⟨old, hold, -, hbefore⟩ := hk.committed n row hrow
  exact (hbefore hpublished).elim (h.published n old hold) id

theorem Stored.send (h : Stored group s) (hknown : (s.outbox.committed n).isSome)
    (hbefore : ∀ m, s.Before group m n → m ∈ s.stream) :
    Stored group { s with sent := n :: s.sent } where
  ready m hm := by
    rcases List.mem_cons.mp hm with rfl | hm
    · exact ⟨hknown, hbefore⟩
    · exact h.ready m hm
  sent m hm := List.mem_cons_of_mem _ (h.sent m hm)
  once := h.once
  order := h.order
  published := h.published

theorem Stored.store (h : Stored group s) (hn : n ∈ s.sent) :
    Stored group (s.store n) ∧ Extends group s (s.store n) := by
  have hmem : ∀ m ∈ s.stream, m ∈ (s.store n).stream := by
    intro m hm
    simp only [OutboxState.store]
    split
    · exact hm
    · exact List.mem_append_left _ hm
  refine ⟨⟨fun m hm => ?_, fun m hm => ?_, ?_, fun m m' hm' hbefore => ?_,
    fun m row hrow hp => ?_⟩, fun _ h => h, fun _ _ _ h => h, hmem⟩
  · exact ⟨(h.ready m hm).1, fun m' hm' => hmem m' ((h.ready m hm).2 m' hm')⟩
  · simp only [OutboxState.store] at hm
    split at hm
    · exact h.sent m hm
    · rcases List.mem_append.mp hm with hm | hm
      · exact h.sent m hm
      · exact List.mem_singleton.mp hm ▸ hn
  · simp only [OutboxState.store]
    split
    · exact h.once
    · rename_i hnew
      exact List.nodup_append.mpr ⟨h.once, List.nodup_singleton n, by
        rintro m hm _ hmem rfl
        exact hnew (List.mem_singleton.mp hmem ▸ hm)⟩
  · simp only [OutboxState.store] at hm' ⊢
    split at hm'
    · rename_i hold
      rw [if_pos hold]
      exact h.order m m' hm' hbefore
    · rename_i hnew
      rw [if_neg hnew]
      rcases List.mem_append.mp hm' with hm' | hm'
      · exact (h.order m m' hm' hbefore).trans (List.sublist_append_left ..)
      · obtain rfl := List.mem_singleton.mp hm'
        exact (List.singleton_sublist.mpr ((h.ready m' hn).2 m hbefore)).append (.refl _)
  · exact hmem m (h.published m row hrow hp)

/-! ## What a relay has read -/

/-- The events a relay has yet to mark. -/
def OutboxPc.batch : OutboxPc → List PendingEvent
  | .publish left => left
  | .await event left => event :: left
  | .mark event left => event :: left
  | _ => []

/-- What comes before an event the relay has read is stored, or the relay
has read it too. -/
structure OutboxPc.Ok (group : Uuid → α) (s : OutboxState) (pc : OutboxPc) : Prop where
  sorted : pc.batch.Pairwise (·.seq < ·.seq)
  known : ∀ e ∈ pc.batch, (s.outbox.committed e.seq).isSome ∧
    ∀ m, s.Before group m e.seq → m ∈ s.stream ∨ ∃ e' ∈ pc.batch, e'.seq = m
  marking : ∀ event left, pc = .mark event left → event.seq ∈ s.stream

theorem OutboxPc.Ok.extend (h : pc.Ok group s) (hext : Extends group s s') : pc.Ok group s' where
  sorted := h.sorted
  known e he := by
    obtain ⟨hknown, hbefore⟩ := h.known e he
    refine ⟨hext.known _ hknown, fun m hm => ?_⟩
    exact (hbefore m (hext.before m _ hknown hm)).imp_left (hext.stream m)
  marking event left heq := hext.stream _ (h.marking event left heq)

theorem OutboxPc.Ok.of_nil (h : pc.batch = []) : pc.Ok group s where
  sorted := h ▸ .nil
  known e he := by
    rw [h] at he
    cases he
  marking event left heq := by
    rw [heq] at h
    cases h

theorem mem_head_of_before {β : Type} {number : β → Nat} {rows : List β} {limit : Nat} {x y : β}
    (h : rows.Pairwise (number · < number ·)) (hx : x ∈ rows.take limit) (hy : y ∈ rows)
    (hlt : number y < number x) : y ∈ rows.take limit := by
  have hcases := hy
  rw [← rows.take_append_drop limit, List.mem_append] at hcases
  refine hcases.resolve_right fun hlate => ?_
  rw [← rows.take_append_drop limit] at h
  have := (List.pairwise_append.mp h).2.2 x hx y hlate
  omega

theorem OutboxState.mem_pending : row ∈ s.pending ↔
    row.seq < s.nextSeq ∧ s.outbox.committed row.seq = some row ∧ row.published = false := by
  simp only [OutboxState.pending, List.mem_filter, List.mem_filterMap, List.mem_range,
    Bool.not_eq_true']
  constructor
  · rintro ⟨⟨n, hlt, hrow⟩, hunpublished⟩
    obtain rfl := Db.key_of_committed hrow
    exact ⟨hlt, hrow, hunpublished⟩
  · rintro ⟨hlt, hrow, hunpublished⟩
    exact ⟨⟨row.seq, hlt, hrow⟩, hunpublished⟩

theorem OutboxState.pending_sorted (s : OutboxState) : s.pending.Pairwise (·.seq < ·.seq) := by
  refine List.Pairwise.filter _ (List.pairwise_filterMap.mpr ?_)
  refine List.pairwise_lt_range.imp fun hlt row hrow row' hrow' => ?_
  rw [Db.key_of_committed hrow, Db.key_of_committed hrow']
  exact hlt

theorem ok_head (hd : Draws group s) (hs : Stored group s) (limit : Nat) :
    (OutboxPc.publish (s.head limit)).Ok group s where
  sorted := by
    refine List.pairwise_map.mpr (s.pending_sorted.sublist (List.take_sublist ..))
  known e he := by
    obtain ⟨row, htake, rfl⟩ := List.mem_map.mp he
    obtain ⟨-, hrow, -⟩ := OutboxState.mem_pending.mp (List.mem_of_mem_take htake)
    refine ⟨by rw [hrow]; rfl, ?_⟩
    rintro m ⟨old, -, hold, -, -, hlt⟩
    obtain rfl := Db.key_of_committed hold
    cases hpublished : old.published with
    | true => exact .inl (hs.published _ old hold hpublished)
    | false =>
      have hmem : old ∈ s.pending.take limit :=
        mem_head_of_before s.pending_sorted htake
          (OutboxState.mem_pending.mpr ⟨hd.numbered _ old hold, hold, hpublished⟩) hlt
      exact .inr ⟨_, List.mem_map_of_mem hmem, rfl⟩
  marking _ _ heq := by cases heq

/-! ## One step -/

/-- The user of the event that the next step records. -/
def OutboxPc.records : OutboxPc → Option Uuid
  | .enqueue _ userId _ (_ :: _) => some userId
  | _ => none

/-- The order is kept, and nothing is committed behind the relays. -/
structure OutboxOrderly (group : Uuid → α) (s s' : OutboxState) : Prop where
  draws : Draws group s'
  stored : Stored group s'
  ext : Extends group s s'

section

variable (hd : Draws group s) (hs : Stored group s)
include hd hs

theorem OutboxOrderly.keep (hk : OutboxKeeps s s') (hseq : s'.nextSeq = s.nextSeq)
    (hpending : ∀ i n row, s'.outbox.pending i n = some row → s.outbox.pending i n = some row) :
    OutboxOrderly group s s' :=
  ⟨hd.keep hk hseq hpending, hs.keep hk, hk.extends⟩

theorem OutboxOrderly.same (houtbox : s'.outbox = s.outbox) (hseq : s'.nextSeq = s.nextSeq)
    (hsent : s'.sent = s.sent) (hstream : s'.stream = s.stream) : OutboxOrderly group s s' :=
  .keep hd hs (.of_committed (fun n => by rw [houtbox]) hsent hstream) hseq
    fun i n row hrow => houtbox ▸ hrow

/-- A relay changes a row: whose event it is stays, and it is marked only
after it was stored. -/
theorem OutboxOrderly.update {v : Db.Visit OutboxRow} {f : OutboxRow → OutboxRow}
    {outbox : Db OutboxRow.seq}
    (h : s.outbox.update n (fun _ => true) (fun row => some (f row)) = some (v, outbox))
    (hf : ∀ row, (f row).seq = row.seq ∧ (f row).userId = row.userId)
    (hmark : ∀ row, (f row).published = true → row.published = true ∨ n ∈ s.stream) :
    OutboxOrderly group s { s with outbox := outbox } := by
  rcases Db.update_spec (fun _ _ h => Option.some.inj h ▸ (hf _).1) h with
    ⟨old, row, -, hold, -, hrow, rfl, hreplaced⟩ | ⟨rfl, -⟩
  · obtain rfl := Option.some.inj hrow
    refine .keep hd hs ⟨fun m hm => ?_, fun m row' hrow' => ?_, rfl, rfl⟩ rfl
      fun i m row' hrow' => hreplaced.pending i m ▸ hrow'
    · by_cases hne : m = (f old).seq
      · rw [hne, hreplaced.self]
        rfl
      · rwa [hreplaced.committed m hne]
    · by_cases hne : m = (f old).seq
      · subst hne
        obtain rfl := Option.some.inj (hreplaced.self.symm.trans hrow')
        exact ⟨old, hold, (hf old).2.symm, hmark old⟩
      · exact ⟨row', (hreplaced.committed m hne).symm.trans hrow', rfl, .inl⟩
  · exact .same hd hs rfl rfl rfl rfl

theorem changeStep_orderly (halone : ∀ userId ∈ pc.records, ¬ s.GroupBusy group i userId)
    (h : changeStep i s pc = some (s', pc')) : OutboxOrderly group s s' ∧ pc'.batch = [] := by
  have hsame : ∀ {s' : OutboxState}, s'.outbox = s.outbox → s'.nextSeq = s.nextSeq →
      s'.sent = s.sent → s'.stream = s.stream → OutboxOrderly group s s' := .same hd hs
  unfold changeStep at h
  split at h
  · cases h
    refine ⟨hsame rfl rfl rfl rfl, ?_⟩
    split
    · rfl
    · split <;> rfl
  · cases h
    refine ⟨hsame rfl rfl rfl rfl, ?_⟩
    split <;> rfl
  · cases h
    refine ⟨hsame rfl rfl rfl rfl, ?_⟩
    split <;> rfl
  · split at h <;> cases h
    · refine ⟨hsame rfl rfl rfl rfl, ?_⟩
      split <;> rfl
    · exact ⟨hsame rfl rfl rfl rfl, rfl⟩
  · cases h
    exact ⟨hsame rfl rfl rfl rfl, rfl⟩
  · cases h
    exact ⟨hsame rfl rfl rfl rfl, rfl⟩
  · split at h <;> cases h
    exact ⟨hsame rfl rfl rfl rfl, rfl⟩
  · split at h <;> cases h
    rename_i outbox hinsert
    have hk : OutboxKeeps s { s with outbox := outbox, nextSeq := s.nextSeq + 1 } :=
      .of_committed (Db.changed_insert hinsert).committed rfl rfl
    exact ⟨⟨hd.insert rfl rfl (halone _ rfl) hinsert rfl, hs.keep hk, hk.extends⟩, rfl⟩
  · cases h
    have hext : Extends group s { s with
        users := s.users.commit i, sessions := s.sessions.commit i, outbox := s.outbox.commit i } :=
      hd.commit_extends rfl rfl
    refine ⟨⟨hd.commit rfl rfl, hs.extend hext rfl rfl fun n row hrow hpublished => ?_, hext⟩, rfl⟩
    rcases Draws.commit_cases rfl hrow with hown | hold
    · rw [(hd.drawn i n row hown).2.1] at hpublished
      cases hpublished
    · exact hs.published n row hold hpublished
  · cases h

theorem relayStep_orderly {acked : Bool} (hok : pc.Ok group s)
    (h : relayStep i acked s pc = some (s', pc')) : OutboxOrderly group s s' ∧ pc'.Ok group s' := by
  have hsame : ∀ {s' : OutboxState}, s'.outbox = s.outbox → s'.nextSeq = s.nextSeq →
      s'.sent = s.sent → s'.stream = s.stream → OutboxOrderly group s s' := .same hd hs
  unfold relayStep at h
  split at h
  · cases h
    refine ⟨hsame rfl rfl rfl rfl, .of_nil ?_⟩
    split <;> rfl
  · split at h <;> cases h
    · exact ⟨hsame rfl rfl rfl rfl, .of_nil rfl⟩
    · exact ⟨hsame rfl rfl rfl rfl, .of_nil rfl⟩
  · cases h
    exact ⟨hsame rfl rfl rfl rfl, ok_head hd hs relayBatch⟩
  · cases h
    exact ⟨hsame rfl rfl rfl rfl, .of_nil rfl⟩
  · rename_i event left
    split at h <;> cases h
    · -- What comes before the first of the batch is not in the batch.
      obtain ⟨hknown, hbefore⟩ := hok.known event (List.mem_cons_self ..)
      have hready : ∀ m, s.Before group m event.seq → m ∈ s.stream := by
        intro m hm
        refine (hbefore m hm).resolve_right ?_
        rintro ⟨e, he, rfl⟩
        obtain ⟨-, -, -, -, -, hlt⟩ := hm
        rcases List.mem_cons.mp he with rfl | he
        · omega
        · have := (List.pairwise_cons.mp hok.sorted).1 e he
          omega
      exact ⟨⟨⟨hd.numbered, hd.drawn, hd.later, hd.alone⟩, hs.send hknown hready,
        ⟨fun _ h => h, fun _ _ _ h => h, fun _ h => h⟩⟩, ⟨hok.sorted, hok.known, by rintro _ _ ⟨⟩⟩⟩
    · exact ⟨hsame rfl rfl rfl rfl, .of_nil rfl⟩
  · split at h
    · split at h <;> cases h
      rename_i hstored
      refine ⟨hsame rfl rfl rfl rfl, hok.sorted, hok.known, fun event' left' heq => ?_⟩
      cases heq
      exact hstored
    · cases h
      exact ⟨hsame rfl rfl rfl rfl, .of_nil rfl⟩
  · split at h <;> cases h
    rename_i event left _ v outbox hupdate
    have hstored := hok.marking event left rfl
    have hord := OutboxOrderly.update hd hs hupdate (fun _ => ⟨rfl, rfl⟩) fun _ _ => .inr hstored
    have hok' := hok.extend hord.ext
    refine ⟨hord, (List.pairwise_cons.mp hok.sorted).2, fun e he => ?_, by rintro _ _ ⟨⟩⟩
    obtain ⟨hknown, hbefore⟩ := hok'.known e (List.mem_cons_of_mem _ he)
    refine ⟨hknown, fun m hm => (hbefore m hm).elim .inl ?_⟩
    rintro ⟨e', he', rfl⟩
    rcases List.mem_cons.mp he' with rfl | he'
    · exact .inl hstored
    · exact .inr ⟨e', he', rfl⟩
  · split at h <;> cases h
    rename_i hupdate
    exact ⟨.update hd hs hupdate (fun _ => ⟨rfl, rfl⟩) fun _ => .inl, .of_nil rfl⟩
  · cases h
    exact ⟨hsame rfl rfl rfl rfl, .of_nil rfl⟩
  · cases h

theorem outboxStep_orderly {a : OutboxAct} (hok : pc.Ok group s)
    (halone : ∀ userId ∈ pc.records, ¬ s.GroupBusy group i userId)
    (h : outboxProgram i a s pc = some (s', pc')) : OutboxOrderly group s s' ∧ pc'.Ok group s' := by
  have hsame : ∀ {s' : OutboxState}, s'.outbox = s.outbox → s'.nextSeq = s.nextSeq →
      s'.sent = s.sent → s'.stream = s.stream → OutboxOrderly group s s' := .same hd hs
  cases a with
  | tick t =>
    simp only [outboxProgram] at h
    split at h <;> cases h
    have hord : OutboxOrderly group s { s with now := t } := hsame rfl rfl rfl rfl
    exact ⟨hord, hok.extend hord.ext⟩
  | deliver n =>
    simp only [outboxProgram] at h
    split at h <;> cases h
    rename_i hsent
    obtain ⟨hstored, hext⟩ := hs.store hsent
    exact ⟨⟨⟨hd.numbered, hd.drawn, hd.later, hd.alone⟩, hstored, hext⟩, hok.extend hext⟩
  | change =>
    simp only [outboxProgram] at h
    split at h <;> cases h <;> exact ⟨hsame rfl rfl rfl rfl, .of_nil rfl⟩
  | relay =>
    simp only [outboxProgram] at h
    split at h <;> cases h
    exact ⟨hsame rfl rfl rfl rfl, .of_nil rfl⟩
  | go =>
    simp only [outboxProgram] at h
    cases hchange : changeStep i s pc with
    | some =>
      rw [hchange] at h
      cases h
      obtain ⟨hord, hbatch⟩ := changeStep_orderly hd hs halone hchange
      exact ⟨hord, .of_nil hbatch⟩
    | none =>
      rw [hchange] at h
      exact relayStep_orderly hd hs hok h
  | fail =>
    cases h
    refine ⟨.keep hd hs (.of_committed (fun n => Slot.rollback_committed i _) rfl rfl) rfl ?_,
      .of_nil rfl⟩
    intro j n row hrow
    rw [Db.rollback_pending] at hrow
    split at hrow
    · cases hrow
    · exact hrow

end

/-! ## Whole runs -/

/-- No event of a group is recorded while another transaction has one of the
group that is not committed. -/
def RecordsApart (group : Uuid → α) (c : OutboxConf) (i : Nat) (_ : OutboxAct) : Prop :=
  ∀ userId ∈ (c.procs i).records, ¬ c.shared.GroupBusy group i userId

instance [DecidableEq α] (c : OutboxConf) (i : Nat) (a : OutboxAct) :
    Decidable (RecordsApart group c i a) := by
  unfold RecordsApart OutboxState.GroupBusy
  infer_instance

theorem OutboxConf.AtRest.stored {c₀ c : OutboxConf} (hrest : c₀.AtRest)
    (hrun : Steps outboxProgram (RecordsApart group) c₀ c) :
    Draws group c.shared ∧ Stored group c.shared := by
  have hpending : ∀ i n row, c₀.shared.outbox.pending i n ≠ some row := by
    intro i n row hrow
    have := Db.holder_of_pending hrow
    rw [hrest.outbox n] at this
    cases this
  refine (hrun.invariant (I := Holds (fun s => Draws group s ∧ Stored group s)
    fun _ s pc => pc.Ok group s) ?_ ?_).shared
  · intro c i a s p h hapart hprog
    obtain ⟨hord, hok⟩ :=
      outboxStep_orderly h.shared.1 h.shared.2 (h.procs i) hapart hprog
    exact .set ⟨hord.draws, hord.stored⟩ hok fun j _ => (h.procs j).extend hord.ext
  · refine ⟨⟨⟨hrest.numbered, fun i n row hrow => absurd hrow (hpending i n row),
      fun i n row hrow => absurd hrow (hpending i n row),
      fun i j m n row row' hrow => absurd hrow (hpending i m row)⟩, ?_⟩, fun i => ?_⟩
    · refine ⟨?_, ?_, by rw [hrest.stream]; exact .nil, ?_, fun n row hrow hpublished => ?_⟩
      · simp [hrest.sent]
      · simp [hrest.stream]
      · simp [hrest.stream]
      · rw [hrest.pending n row hrow] at hpublished
        cases hpublished
    · rw [hrest.idle i]
      exact .of_nil rfl

end Order

/-! ## The events of one user -/

/-- **A relay keeps the order of a user's events** when no two transactions
record events of the user at the same time. -/
theorem user_events_in_order {c₀ c : OutboxConf} (hrest : c₀.AtRest)
    (hrun : Steps outboxProgram (RecordsApart id) c₀ c) {m n : Nat} {row row' : OutboxRow}
    (hm : c.shared.outbox.committed m = some row) (hn : c.shared.outbox.committed n = some row')
    (huser : row.userId = row'.userId) (hlt : m < n) (hstored : n ∈ c.shared.stream) :
    [m, n] <+ c.shared.stream :=
  (hrest.stored hrun).2.order m n hstored ⟨row, row', hm, hn, huser, hlt⟩

/-- A user with two sessions. -/
def twoSessions : OutboxConf := .load [⟨1, .active⟩] [⟨8, 1, false⟩, ⟨9, 1, false⟩] []

theorem twoSessions_atRest : twoSessions.AtRest := OutboxConf.load_atRest (by decide +kernel)

/-- From each session the other is revoked, up to the commit. -/
def revokeOther (i : Nat) (keep : Uuid) : List (Nat × OutboxAct) :=
  [(i, .change (.revokeAll (some keep)) 1), (i, .go true), (i, .go true), (i, .go true),
    (i, .go true), (i, .go true)]

/-- A relay stores the first unpublished event and marks it. -/
def relayOne (i n : Nat) : List (Nat × OutboxAct) :=
  [(i, .relay), (i, .go true), (i, .go true), (i, .go true), (i, .go true), (i, .deliver n),
    (i, .go true), (i, .go true), (i, .go true), (i, .go true)]

theorem revoked_one_after_the_other :
    ∃ c, Steps outboxProgram (RecordsApart id) twoSessions c ∧ c.shared.stream = [0, 1] ∧
      [0, 1] <+ c.shared.stream := by
  obtain ⟨c, hexec, hstream, ⟨row, hm, row', hn, huser⟩⟩ :
      ∃ c ∈ exec outboxProgram (RecordsApart id) twoSessions
        (revokeOther 0 8 ++ [(0, .go true)] ++ relayOne 2 0 ++ revokeOther 1 9 ++
          [(1, .go true)] ++ relayOne 2 1), c.shared.stream = [0, 1] ∧
        ∃ row ∈ c.shared.outbox.committed 0, ∃ row' ∈ c.shared.outbox.committed 1,
          row.userId = row'.userId := by
    decide +kernel
  have hrun := steps_of_exec hexec
  exact ⟨c, hrun, hstream, user_events_in_order twoSessions_atRest hrun hm hn huser
    (by decide) (by simp [hstream])⟩

/-- Both draw their numbers before either commits, and the second commits
first: a relay stores its event before the other is there. -/
theorem stored_in_commit_order :
    twoSessions.AtRest ∧ ∃ c, Steps outboxProgram Free twoSessions c ∧
      (∃ row row', c.shared.outbox.committed 0 = some row ∧
        c.shared.outbox.committed 1 = some row' ∧ row.userId = row'.userId) ∧
      c.shared.stream = [1, 0] ∧ ¬ [0, 1] <+ c.shared.stream := by
  obtain ⟨c, hexec, hstream, ⟨row, hm, row', hn, huser⟩⟩ :
      ∃ c ∈ exec outboxProgram Free twoSessions
        (revokeOther 0 8 ++ revokeOther 1 9 ++ [(1, .go true)] ++ relayOne 2 1 ++
          [(0, .go true)] ++ relayOne 2 0), c.shared.stream = [1, 0] ∧
        ∃ row ∈ c.shared.outbox.committed 0, ∃ row' ∈ c.shared.outbox.committed 1,
          row.userId = row'.userId := by
    decide +kernel
  refine ⟨twoSessions_atRest, c, steps_of_exec hexec, ⟨row, row', hm, hn, huser⟩, hstream, ?_⟩
  rw [hstream]
  decide

/-! ## All events committed before the run -/

/-- The step records no event. -/
def RecordsNone (c : OutboxConf) (i : Nat) (_ : OutboxAct) : Prop := (c.procs i).records = none

instance (c : OutboxConf) (i : Nat) (a : OutboxAct) : Decidable (RecordsNone c i a) :=
  inferInstanceAs (Decidable (_ = _))

/-- The numbers of the committed events, in order. -/
def OutboxState.numbers (s : OutboxState) : List Nat :=
  (List.range s.nextSeq).filter fun n => (s.outbox.committed n).isSome

/-- A list in which each element comes after the smaller ones of a sorted
list is a prefix of the sorted list. -/
theorem prefix_of_order {l p : List Nat} (hl : l.Pairwise (· < ·)) (hp : p.Nodup)
    (hmem : ∀ n ∈ p, n ∈ l) (horder : ∀ m ∈ l, ∀ n ∈ p, m < n → [m, n] <+ p) : p <+: l := by
  induction l generalizing p with
  | nil => rw [List.eq_nil_iff_forall_not_mem.mpr fun n hn => List.not_mem_nil (hmem n hn)]
  | cons x l ih =>
    cases p with
    | nil => exact List.nil_prefix
    | cons y =>
      obtain ⟨hy, hrest⟩ := List.nodup_cons.mp hp
      obtain ⟨hx, hl⟩ := List.pairwise_cons.mp hl
      -- The first of the sorted list would have to come before `y`.
      have hxy : x = y := by
        rcases List.mem_cons.mp (hmem y (List.mem_cons_self ..)) with rfl | hyl
        · rfl
        · cases horder x (List.mem_cons_self ..) y (List.mem_cons_self ..) (hx y hyl) with
          | cons _ h => exact absurd (h.subset (by simp)) hy
          | cons_cons => rfl
      subst hxy
      refine List.prefix_cons_inj x |>.mpr (ih hl hrest (fun n hn => ?_) fun m hm n hn hlt => ?_)
      · refine (List.mem_cons.mp (hmem n (List.mem_cons_of_mem _ hn))).resolve_left ?_
        rintro rfl
        exact hy hn
      · have hsub := horder m (List.mem_cons_of_mem _ hm) n (List.mem_cons_of_mem _ hn) hlt
        cases hsub with
        | cons _ h => exact h
        | cons_cons => exact absurd (hx _ hm) (Nat.lt_irrefl _)

/-- **The stream is a prefix of the committed events**, and holds every event
that is marked. -/
theorem stream_prefix_of_events {c₀ c : OutboxConf} (hrest : c₀.AtRest)
    (hrun : Steps outboxProgram RecordsNone c₀ c) :
    c.shared.stream <+: c.shared.numbers ∧
      ∀ n row, c.shared.outbox.committed n = some row → row.published = true →
        n ∈ c.shared.stream := by
  -- All events are in one group.
  have hrun' : Steps outboxProgram (RecordsApart fun _ => ()) c₀ c :=
    hrun.mono fun c i _ hnone userId hmem =>
      absurd hmem (by rw [hnone]; exact Option.not_mem_none userId)
  obtain ⟨hd, hs⟩ := hrest.stored hrun'
  refine ⟨prefix_of_order (List.pairwise_lt_range.filter _) hs.once (fun n hn => ?_)
    fun m hm n hn hlt => ?_, hs.published⟩
  · have hknown := (hs.ready n (hs.sent n hn)).1
    obtain ⟨row, hrow⟩ := Option.isSome_iff_exists.mp hknown
    exact List.mem_filter.mpr ⟨List.mem_range.mpr (hd.numbered n row hrow), hknown⟩
  · obtain ⟨row, hrow⟩ := Option.isSome_iff_exists.mp (List.mem_filter.mp hm).2
    obtain ⟨row', hrow'⟩ := Option.isSome_iff_exists.mp (hs.ready n (hs.sent n hn)).1
    exact hs.order m n hn ⟨row, row', hrow, hrow', rfl, hlt⟩

/-- Two events of two users. -/
def twoEvents : OutboxConf :=
  .load [] [] [⟨0, 1, .suspended, 0, false, 0, 0⟩, ⟨1, 2, .reactivated, 0, false, 0, 0⟩]

/-- A relay dies with the first event on its way, another stores and marks
it, and gives up on the second, which is stored after that. -/
def crashAndHandOver : List (Nat × OutboxAct) :=
  [(0, .relay), (0, .go true), (0, .go true), (0, .go true), (0, .go true), (0, .fail),
    (1, .relay), (1, .go true), (1, .go true), (1, .go true), (1, .go true), (2, .deliver 0),
    (1, .go true), (1, .go true), (1, .go true), (1, .go false), (1, .go true), (2, .deliver 0),
    (2, .deliver 1), (1, .go true)]

theorem stored_through_crash :
    twoEvents.AtRest ∧ ∃ c, Steps outboxProgram RecordsNone twoEvents c ∧
      (∃ row, c.shared.outbox.committed 0 = some row ∧ row.published = true) ∧
      c.shared.stream = [0, 1] ∧ c.shared.stream <+: c.shared.numbers := by
  have hrest : twoEvents.AtRest := OutboxConf.load_atRest (by decide +kernel)
  obtain ⟨c, hexec, hstream, hmarked⟩ :
      ∃ c ∈ exec outboxProgram RecordsNone twoEvents crashAndHandOver, c.shared.stream = [0, 1] ∧
        ∃ row ∈ c.shared.outbox.committed 0, row.published = true := by
    decide +kernel
  have hrun := steps_of_exec hexec
  exact ⟨hrest, c, hrun, hmarked, hstream, (stream_prefix_of_events hrest hrun).1⟩

end AuthApi
