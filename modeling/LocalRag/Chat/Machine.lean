import LocalRag.Chat.Steps

/-!
# The turn state machine — what holds of the turns of every chat

`TurnInv` is what the functions on turns keep: the keys, the ordinals of each
chat in creation order, one generating turn per chat, the check on the status of
every row, a disposition for every source, and citations of complete turns only.
It has one lemma per constructor of `ChatStep`; three of them rewrite rows of
`chat_turns` in place and share `TurnInv.mapTurns`.

Beside the invariant stand the facts about two states of one run: a terminal row
stays (`ChatStep.keepsTerminal`), a token is current only after a call drew it
(`ChatStep.token`), and a turn becomes complete in a finalization that found
every source authorized (`ChatStep.completes`). `turns_run` puts them together.
-/

namespace LocalRag.Chat

open LocalRag.Core Access Library Storage Ingest

variable {db : Db} {chat : ChatStore}

/-! ## The invariant -/

/-- The turns of a chat, in creation order. -/
def turnsOf (chat : ChatStore) (chatId : ChatId) : List ChatTurn :=
  chat.turns.filter fun t => t.chatId = chatId

/-- Where a turn stands. -/
def place (t : ChatTurn) : ChatId × Nat := (t.chatId, t.ordinal)

structure TurnInv (chat : ChatStore) : Prop where
  chats : Keyed (·.id) chat.chats
  turns : Keyed (·.id) chat.turns
  owned : ∀ t ∈ chat.turns, ∃ c ∈ chat.chats, c.id = t.chatId
  /-- The chat's counter is one past its last turn. -/
  ordinals : ∀ c ∈ chat.chats, ∃ n, c.nextTurnOrdinal = n + 1 ∧
    (turnsOf chat c.id).map (·.ordinal) = List.range' 1 n
  consistent : ∀ t ∈ chat.turns, statusConsistent t = true
  one : ∀ t ∈ chat.turns, ∀ t' ∈ chat.turns, t.chatId = t'.chatId →
    t.status = .generating → t'.status = .generating → t = t'
  disposed : ∀ s ∈ chat.sources, isDisposed s = true
  cited : ∀ c ∈ chat.citations, ∃ t ∈ chat.turns, t.id = c.turnId ∧ t.status = .complete ∧
    ∃ s ∈ chat.sources, s.turnId = c.turnId ∧ s.rank = c.sourceRank

theorem turnInv_empty : TurnInv ⟨[], [], [], []⟩ := by
  refine ⟨.nil _, .nil _, ?_, ?_, ?_, ?_, ?_, ?_⟩ <;> intro x hx <;> cases hx

/-- A chat's ordinals are read off the places of the turns. -/
theorem ordinals_eq_places (chat : ChatStore) (chatId : ChatId) :
    (turnsOf chat chatId).map (·.ordinal) =
      ((chat.turns.map place).filter fun p => p.1 = chatId).map (·.2) := by
  rw [turnsOf, List.filter_map, List.map_map]
  rfl

theorem ordinals_congr {chat' : ChatStore}
    (h : chat'.turns.map place = chat.turns.map place) (chatId : ChatId) :
    (turnsOf chat' chatId).map (·.ordinal) = (turnsOf chat chatId).map (·.ordinal) := by
  rw [ordinals_eq_places, ordinals_eq_places, h]

/-! ## Rows of `chat_turns` written in place -/

/-- Rows may be rewritten where they stand, if complete ones are left alone. -/
theorem TurnInv.mapTurns (h : TurnInv chat) {f : ChatTurn → ChatTurn}
    (hid : ∀ t ∈ chat.turns, (f t).id = t.id)
    (hplace : ∀ t ∈ chat.turns, place (f t) = place t)
    (hconsistent : ∀ t ∈ chat.turns, statusConsistent (f t) = true)
    (hdone : ∀ t ∈ chat.turns, t.status = .complete → f t = t)
    (hone : ∀ t ∈ chat.turns, ∀ t' ∈ chat.turns, t.chatId = t'.chatId →
      (f t).status = .generating → (f t').status = .generating → t = t') :
    TurnInv { chat with turns := chat.turns.map f } := by
  have hplaces : (chat.turns.map f).map place = chat.turns.map place := by
    rw [List.map_map]
    exact List.map_congr_left hplace
  have hchat : ∀ t ∈ chat.turns, (f t).chatId = t.chatId :=
    fun t ht => congrArg Prod.fst (hplace t ht)
  refine ⟨h.chats, ?_, ?_, ?_, ?_, ?_, h.disposed, ?_⟩
  · show ((chat.turns.map f).map (·.id)).Nodup
    rw [List.map_map, List.map_congr_left (g := (·.id)) hid]
    exact h.turns
  · intro t' ht'
    obtain ⟨t, ht, rfl⟩ := List.mem_map.mp ht'
    rw [hchat t ht]
    exact h.owned t ht
  · intro c hc
    obtain ⟨n, hn, hord⟩ := h.ordinals c hc
    refine ⟨n, hn, ?_⟩
    rw [← hord]
    exact ordinals_congr hplaces c.id
  · intro t' ht'
    obtain ⟨t, ht, rfl⟩ := List.mem_map.mp ht'
    exact hconsistent t ht
  · intro a ha b hb hab hga hgb
    obtain ⟨t, ht, rfl⟩ := List.mem_map.mp ha
    obtain ⟨t', ht', rfl⟩ := List.mem_map.mp hb
    rw [hchat t ht, hchat t' ht'] at hab
    rw [hone t ht t' ht' hab hga hgb]
  · intro c hc
    obtain ⟨t, ht, htid, hcomplete, hsource⟩ := h.cited c hc
    have hsame : f t = t := hdone t ht hcomplete
    refine ⟨t, ?_, htid, hcomplete, hsource⟩
    rw [← hsame]
    exact List.mem_map_of_mem ht

variable {t : ChatTurn}

/-- A row of the table after one turn's row was replaced. -/
theorem mem_setTurn {new : ChatTurn} (ht : t ∈ (setTurn chat new).turns) :
    t = new ∨ (t ∈ chat.turns ∧ t.id ≠ new.id) := by
  obtain ⟨t₀, ht₀, rfl⟩ := mem_updateWhere.mp ht
  by_cases hid : t₀.id = new.id
  · rw [if_pos (by simpa using hid)]
    exact Or.inl rfl
  · rw [if_neg (by simpa using hid)]
    exact Or.inr ⟨ht₀, hid⟩

/-- Another turn's row is still there. -/
theorem mem_setTurn_of_ne {new : ChatTurn} (ht : t ∈ chat.turns) (hne : t.id ≠ new.id) :
    t ∈ (setTurn chat new).turns :=
  mem_updateWhere.mpr ⟨t, ht, if_neg (by simpa using hne)⟩

/-- So is the new row. -/
theorem setTurn_mem {old new : ChatTurn} (hold : old ∈ chat.turns) (hid : new.id = old.id) :
    new ∈ (setTurn chat new).turns :=
  mem_updateWhere.mpr ⟨old, hold, if_pos (by simpa using hid.symm)⟩

/-- One turn that is not complete gets another row at its place. -/
theorem TurnInv.setTurn (h : TurnInv chat) {old new : ChatTurn} (hold : old ∈ chat.turns)
    (hid : new.id = old.id) (hplace : place new = place old) (hopen : old.status ≠ .complete)
    (hconsistent : statusConsistent new = true)
    (hidle : new.status = .generating →
      ∀ t ∈ chat.turns, t.chatId = old.chatId → t.status ≠ .generating) :
    TurnInv (setTurn chat new) := by
  -- the row the update rewrites is `old`
  have hrow : ∀ t ∈ chat.turns, t.id = new.id → t = old :=
    fun t ht heq => h.turns.eq ht hold (heq.trans hid)
  refine h.mapTurns ?_ ?_ ?_ ?_ ?_
  · intro t ht
    by_cases heq : t.id = new.id
    · rw [if_pos (by simpa using heq), heq]
    · rw [if_neg (by simpa using heq)]
  · intro t ht
    by_cases heq : t.id = new.id
    · rw [if_pos (by simpa using heq), hrow t ht heq, hplace]
    · rw [if_neg (by simpa using heq)]
  · intro t ht
    by_cases heq : t.id = new.id
    · rw [if_pos (by simpa using heq)]
      exact hconsistent
    · rw [if_neg (by simpa using heq)]
      exact h.consistent t ht
  · intro t ht hcomplete
    by_cases heq : t.id = new.id
    · rw [hrow t ht heq] at hcomplete
      exact absurd hcomplete hopen
    · rw [if_neg (by simpa using heq)]
  · intro t ht t' ht' hchat hgen hgen'
    have hplaceId : new.chatId = old.chatId := congrArg Prod.fst hplace
    by_cases heq : t.id = new.id <;> by_cases heq' : t'.id = new.id
    · rw [hrow t ht heq, hrow t' ht' heq']
    · rw [if_pos (by simpa using heq)] at hgen
      rw [if_neg (by simpa using heq')] at hgen'
      exact absurd hgen' (hidle hgen t' ht' (by rw [← hchat, hrow t ht heq]))
    · rw [if_neg (by simpa using heq)] at hgen
      rw [if_pos (by simpa using heq')] at hgen'
      exact absurd hgen (hidle hgen' t ht (by rw [hchat, hrow t' ht' heq']))
    · rw [if_neg (by simpa using heq)] at hgen
      rw [if_neg (by simpa using heq')] at hgen'
      exact h.one t ht t' ht' hchat hgen hgen'

/-- Every generating turn is interrupted. -/
theorem TurnInv.repair (h : TurnInv chat) :
    TurnInv { chat with
      turns := updateWhere (fun t => t.status = .generating)
        (endedTurn .interrupted none (some "generation interrupted by stopped service"))
        chat.turns } := by
  refine h.mapTurns ?_ ?_ ?_ ?_ ?_
  · intro t _
    split <;> rfl
  · intro t _
    split <;> rfl
  · intro t ht
    split
    · show statusConsistent (endedTurn .interrupted none _ t) = true
      simp only [endedTurn, statusConsistent, Option.any_some, decide_eq_true_eq, true_and]
      decide
    · exact h.consistent t ht
  · intro t _ hcomplete
    rw [if_neg (by simp [hcomplete])]
  · intro t _ t' _ _ hgen _
    -- a row that is generating afterwards was not rewritten, so it was not generating
    by_cases hwas : t.status = .generating
    · rw [if_pos (by simpa using hwas)] at hgen
      cases hgen
    · rw [if_neg (by simpa using hwas)] at hgen
      exact absurd hgen hwas

/-! ## Chats and turns come and go -/

theorem TurnInv.createChat (h : TurnInv chat) {c : Chat} (hnext : c.nextTurnOrdinal = 1)
    (hfresh : ∀ c' ∈ chat.chats, c'.id ≠ c.id) :
    TurnInv { chat with chats := chat.chats ++ [c] } := by
  -- no turn is in a chat that does not exist yet
  have hnone : turnsOf chat c.id = [] := by
    rw [turnsOf, List.filter_eq_nil_iff]
    intro t ht hown
    obtain ⟨c', hc', hid⟩ := h.owned t ht
    exact hfresh c' hc' (hid.trans (by simpa using hown))
  refine ⟨h.chats.append hfresh, h.turns, ?_, ?_, h.consistent, h.one, h.disposed, h.cited⟩
  · intro t ht
    obtain ⟨c', hc', hid⟩ := h.owned t ht
    exact ⟨c', List.mem_append_left _ hc', hid⟩
  · intro c' hc'
    rcases List.mem_append.mp hc' with hc' | hc'
    · exact h.ordinals c' hc'
    · obtain rfl := List.mem_singleton.mp hc'
      refine ⟨0, hnext, ?_⟩
      show (turnsOf chat c'.id).map _ = _
      rw [hnone]
      rfl

theorem TurnInv.deleteChat (h : TurnInv chat) (chatId : ChatId) :
    TurnInv (withoutChat chat chatId) := by
  refine ⟨h.chats.deleteWhere _, h.turns.deleteWhere _, ?_, ?_, ?_, ?_, ?_, ?_⟩
  · intro t ht
    obtain ⟨ht, hne⟩ := mem_deleteWhere.mp ht
    obtain ⟨c, hc, hid⟩ := h.owned t ht
    refine ⟨c, mem_deleteWhere.mpr ⟨hc, ?_⟩, hid⟩
    rw [hid]
    exact hne
  · intro c hc
    obtain ⟨hc, hne⟩ := mem_deleteWhere.mp hc
    obtain ⟨n, hn, hord⟩ := h.ordinals c hc
    refine ⟨n, hn, ?_⟩
    rw [← hord]
    -- a turn of another chat is not deleted
    have hsame : turnsOf (withoutChat chat chatId) c.id = turnsOf chat c.id := by
      show (LocalRag.Core.deleteWhere _ chat.turns).filter _ = chat.turns.filter _
      rw [LocalRag.Core.deleteWhere, List.filter_filter]
      refine List.filter_congr fun t _ => ?_
      by_cases hown : t.chatId = c.id
      · simpa [hown] using hne
      · simp [hown]
    rw [hsame]
  · intro t ht
    exact h.consistent t (mem_deleteWhere.mp ht).1
  · intro t ht t' ht'
    exact h.one t (mem_deleteWhere.mp ht).1 t' (mem_deleteWhere.mp ht').1
  · intro s hs
    exact h.disposed s (mem_deleteWhere.mp hs).1
  · intro c hc
    obtain ⟨hc, hkept⟩ := mem_deleteWhere.mp hc
    obtain ⟨t, ht, hid, hcomplete, s, hs, hturn, hrank⟩ := h.cited c hc
    refine ⟨t, mem_deleteWhere.mpr ⟨ht, ?_⟩, hid, hcomplete, s,
      mem_deleteWhere.mpr ⟨hs, ?_⟩, hturn, hrank⟩
    · rw [List.any_eq_false] at hkept
      have hother := hkept t ht
      simpa [hid] using hother
    · rw [hturn]
      exact hkept

theorem TurnInv.scope (h : TurnInv chat) (chatId : ChatId) :
    TurnInv { chat with
      chats := updateWhere (fun c => c.id = chatId)
        (fun c => { c with scopeVersion := c.scopeVersion + 1 }) chat.chats } := by
  refine ⟨h.chats.updateWhere fun _ => rfl, h.turns, ?_, ?_, h.consistent, h.one, h.disposed,
    h.cited⟩
  · intro t ht
    obtain ⟨c, hc, hid⟩ := h.owned t ht
    refine ⟨_, mem_updateWhere.mpr ⟨c, hc, rfl⟩, ?_⟩
    split
    · exact hid
    · exact hid
  · intro c hc
    obtain ⟨c₀, hc₀, rfl⟩ := mem_updateWhere.mp hc
    obtain ⟨n, hn, hord⟩ := h.ordinals c₀ hc₀
    split
    · exact ⟨n, hn, hord⟩
    · exact ⟨n, hn, hord⟩

/-- A turn begins at the next ordinal of an idle chat. -/
theorem TurnInv.beginTurn (h : TurnInv chat) {c : Chat} {new : ChatTurn} (hc : c ∈ chat.chats)
    (hplace : place new = (c.id, c.nextTurnOrdinal)) (hconsistent : statusConsistent new = true)
    (hfresh : ∀ t ∈ chat.turns, t.id ≠ new.id)
    (hidle : ∀ t ∈ chat.turns, t.chatId = c.id → t.status ≠ .generating) :
    TurnInv { chat with
      turns := chat.turns ++ [new]
      chats := updateWhere (fun c' => c'.id = c.id)
        (fun c' => { c' with nextTurnOrdinal := c'.nextTurnOrdinal + 1 }) chat.chats } := by
  have hchat : new.chatId = c.id := congrArg Prod.fst hplace
  have hord : new.ordinal = c.nextTurnOrdinal := congrArg Prod.snd hplace
  refine ⟨h.chats.updateWhere fun _ => rfl, h.turns.append hfresh, ?_, ?_, ?_, ?_, h.disposed, ?_⟩
  · -- the counter's update keeps the chats
    have hkept : ∀ c₀ ∈ chat.chats, ∃ c' ∈ updateWhere (fun c' => c'.id = c.id)
        (fun c' => { c' with nextTurnOrdinal := c'.nextTurnOrdinal + 1 }) chat.chats,
        c'.id = c₀.id := by
      intro c₀ hc₀
      refine ⟨_, mem_updateWhere.mpr ⟨c₀, hc₀, rfl⟩, ?_⟩
      split <;> rfl
    intro t ht
    rcases List.mem_append.mp ht with ht | ht
    · obtain ⟨c₀, hc₀, hid⟩ := h.owned t ht
      obtain ⟨c', hc', hid'⟩ := hkept c₀ hc₀
      exact ⟨c', hc', hid'.trans hid⟩
    · obtain rfl := List.mem_singleton.mp ht
      obtain ⟨c', hc', hid'⟩ := hkept c hc
      exact ⟨c', hc', hid'.trans hchat.symm⟩
  · intro c' hc'
    obtain ⟨c₀, hc₀, rfl⟩ := mem_updateWhere.mp hc'
    obtain ⟨n, hn, hrange⟩ := h.ordinals c₀ hc₀
    by_cases hid : c₀.id = c.id
    · obtain rfl := h.chats.eq hc₀ hc hid
      rw [if_pos (by simp)]
      refine ⟨n + 1, by rw [← hn], ?_⟩
      show ((chat.turns ++ [new]).filter _).map _ = _
      rw [List.filter_append, List.filter_cons_of_pos (by simpa using hchat), List.filter_nil,
        List.map_append, List.range'_1_concat]
      show (turnsOf chat c₀.id).map _ ++ [new.ordinal] = _
      rw [hrange, hord, hn, Nat.add_comm]
    · rw [if_neg (by simpa using hid)]
      refine ⟨n, hn, ?_⟩
      show ((chat.turns ++ [new]).filter _).map _ = _
      have hother : ¬ new.chatId = c₀.id := fun heq => hid (heq.symm.trans hchat)
      rw [List.filter_append, List.filter_cons_of_neg (by simpa using hother), List.filter_nil,
        List.append_nil]
      exact hrange
  · intro t ht
    rcases List.mem_append.mp ht with ht | ht
    · exact h.consistent t ht
    · obtain rfl := List.mem_singleton.mp ht
      exact hconsistent
  · intro t ht t' ht' hsame hgen hgen'
    rcases List.mem_append.mp ht with hold | hnew <;>
      rcases List.mem_append.mp ht' with hold' | hnew'
    · exact h.one t hold t' hold' hsame hgen hgen'
    · rw [List.mem_singleton.mp hnew', hchat] at hsame
      exact absurd hgen (hidle t hold hsame)
    · rw [List.mem_singleton.mp hnew, hchat] at hsame
      exact absurd hgen' (hidle t' hold' hsame.symm)
    · rw [List.mem_singleton.mp hnew, List.mem_singleton.mp hnew']
  · intro x hx
    obtain ⟨t, ht, hrest⟩ := h.cited x hx
    exact ⟨t, List.mem_append_left _ ht, hrest⟩

/-! ## Sources and citations -/

/-- The sources may change as long as those that are cited stay and each keeps a
disposition. -/
theorem TurnInv.sources (h : TurnInv chat) {sources : List TurnSource}
    (hkept : ∀ s ∈ chat.sources, ∃ s' ∈ sources, s'.turnId = s.turnId ∧ s'.rank = s.rank)
    (hdisposed : ∀ s ∈ sources, isDisposed s = true) :
    TurnInv { chat with sources := sources } := by
  refine ⟨h.chats, h.turns, h.owned, h.ordinals, h.consistent, h.one, hdisposed, ?_⟩
  intro c hc
  obtain ⟨t, ht, hid, hcomplete, s, hs, hturn, hrank⟩ := h.cited c hc
  obtain ⟨s', hs', hturn', hrank'⟩ := hkept s hs
  exact ⟨t, ht, hid, hcomplete, s', hs', hturn'.trans hturn, hrank'.trans hrank⟩

/-- Citations of a complete turn's stored sources. -/
theorem TurnInv.cite (h : TurnInv chat) {rows : List TurnCitation}
    (hrows : ∀ c ∈ rows, ∃ t ∈ chat.turns, t.id = c.turnId ∧ t.status = .complete ∧
      ∃ s ∈ chat.sources, s.turnId = c.turnId ∧ s.rank = c.sourceRank) :
    TurnInv { chat with citations := chat.citations ++ rows } := by
  refine ⟨h.chats, h.turns, h.owned, h.ordinals, h.consistent, h.one, h.disposed, ?_⟩
  intro c hc
  rcases List.mem_append.mp hc with hc | hc
  · exact h.cited c hc
  · exact hrows c hc

/-- What a retry clears belongs to a turn that is not complete. -/
theorem TurnInv.cleared (h : TurnInv db.chat) {turn : ChatTurn} (hturn : turn ∈ db.chat.turns)
    (hopen : turn.status ≠ .complete) : TurnInv (clearedSources db turn).chat := by
  unfold clearedSources
  split
  · exact h
  refine ⟨h.chats, h.turns, h.owned, h.ordinals, h.consistent, h.one, ?_, ?_⟩
  · intro s hs
    exact h.disposed s (mem_deleteWhere.mp hs).1
  · intro c hc
    obtain ⟨t, ht, hid, hcomplete, s, hs, hsturn, hrank⟩ := h.cited c (mem_deleteWhere.mp hc).1
    refine ⟨t, ht, hid, hcomplete, s, mem_deleteWhere.mpr ⟨hs, ?_⟩, hsturn, hrank⟩
    have hne : s.turnId ≠ turn.id := by
      intro heq
      have hsame : t = turn := h.turns.eq ht hturn (hid.trans (hsturn.symm.trans heq))
      rw [hsame] at hcomplete
      exact hopen hcomplete
    simpa using hne

theorem isDisposed_iff {s : TurnSource} :
    isDisposed s = true ↔ s.documentId ≠ none ∨ s.ownerAuthorizedAtDeletion ≠ none := by
  rw [isDisposed, decide_eq_true_eq]

/-- A call outside the chats keeps every source's place. -/
theorem SourcesStep.keeps {call : IngestCall} {sources : List TurnSource}
    (hs : SourcesStep db call sources) :
    ∀ s ∈ db.chat.sources, ∃ s' ∈ sources, s'.turnId = s.turnId ∧ s'.rank = s.rank := by
  intro s hmem
  cases hs with
  | same => exact ⟨s, hmem, rfl, rfl⟩
  | unlink isGone => exact ⟨_, List.mem_map_of_mem hmem, rfl, rfl⟩
  | delete _ =>
    refine ⟨_, List.mem_map_of_mem (List.mem_map_of_mem hmem), ?_, ?_⟩
    · show (frozenSource db _ s).turnId = s.turnId
      unfold frozenSource
      split <;> rfl
    · show (frozenSource db _ s).rank = s.rank
      unfold frozenSource
      split <;> rfl

/-- It leaves no source without a disposition. -/
theorem SourcesStep.disposed {call : IngestCall} {sources : List TurnSource}
    (hs : SourcesStep db call sources) (h : ∀ s ∈ db.chat.sources, isDisposed s = true) :
    ∀ s ∈ sources, isDisposed s = true := by
  cases hs with
  | same => exact h
  | unlink isGone =>
    intro s' hs'
    obtain ⟨s, hs, rfl⟩ := List.mem_map.mp hs'
    exact h s hs
  | @delete _ d _ hfrozen =>
    intro s' hs'
    obtain ⟨_, hmid, rfl⟩ := List.mem_map.mp hs'
    obtain ⟨s, hs, rfl⟩ := List.mem_map.mp hmid
    by_cases hd : s.documentId = some d
    · -- the document goes, and its reader was frozen first
      exact isDisposed_iff.mpr (Or.inr (hfrozen s hs hd))
    · have hkept : frozenSource db d s = s := by
        unfold frozenSource
        rw [if_neg (fun hboth => hd hboth.1)]
      rw [hkept]
      refine isDisposed_iff.mpr ?_
      rcases isDisposed_iff.mp (h s hs) with hattached | hset
      · refine Or.inl ?_
        show (if s.documentId = some d then none else s.documentId) ≠ none
        rw [if_neg hd]
        exact hattached
      · exact Or.inr hset

/-! ## One step -/

variable {turnId : TurnId}

/-- A citation row names the turn and one of the ranks. -/
theorem mem_citationRows {ranks : List Nat} {c : TurnCitation} (h : c ∈ citationRows turnId ranks) :
    c.turnId = turnId ∧ c.sourceRank ∈ ranks := by
  obtain ⟨⟨k, i⟩, hp, rfl⟩ := List.mem_map.mp h
  rw [List.mk_mem_zipIdx_iff_le_and_getElem?_sub] at hp
  exact ⟨rfl, List.mem_of_getElem? hp.2⟩

/-- A turn that can be retried has stopped without an answer. -/
theorem isRetryable_stopped (h : isRetryable t = true) :
    t.status ≠ .complete ∧ t.status ≠ .accessRevoked := by
  simp only [isRetryable, decide_eq_true_eq] at h
  rcases h with hs | hs | hs | hs <;> rw [hs] <;> decide

/-- The turns are not touched by what a retry clears. -/
theorem clearedSources_turns (db : Db) (turn : ChatTurn) :
    (clearedSources db turn).chat.turns = db.chat.turns := by
  unfold clearedSources
  split <;> rfl

variable {call : ChatCall}

/-- Every step keeps the invariant. -/
theorem ChatStep.turnInv (hs : ChatStep db call chat) (h : TurnInv db.chat) : TurnInv chat := by
  cases hs with
  | same => exact h
  | elsewhere step =>
    obtain ⟨sources, hsources, rfl⟩ := step
    exact h.sources hsources.keeps (hsources.disposed h.disposed)
  | create actor fresh => exact h.createChat rfl fresh
  | delete => exact h.deleteChat _
  | scope chatId => exact h.scope chatId
  | beginTurn mem consistent fresh idle => exact h.beginTurn mem rfl consistent fresh idle
  | @store _ rows attached =>
    refine h.sources (fun s hmem => ⟨s, List.mem_append_left _ hmem, rfl, rfl⟩) fun s hmem => ?_
    rcases List.mem_append.mp hmem with hold | hnew
    · exact h.disposed s hold
    · exact isDisposed_iff.mpr (Or.inl (attached s hnew))
  | ended mem generating unanswered stopped consistent =>
    refine h.setTurn mem rfl rfl ?_ consistent fun hgen => absurd hgen stopped
    rw [generating]
    decide
  | @retry _ _ _ _ turn mem retryable idle consistent =>
    have hopen := (isRetryable_stopped retryable).1
    have hmem : turn ∈ (clearedSources db turn).chat.turns := by
      rw [clearedSources_turns]
      exact mem
    refine (h.cleared mem hopen).setTurn hmem rfl rfl hopen consistent fun _ => ?_
    rw [clearedSources_turns]
    exact idle
  | @finalize _ _ answer insufficient ranks turn held authorized stored consistent =>
    obtain ⟨hmem, _, _, hholds⟩ := heldTurn_some held
    have hopen : turn.status ≠ .complete := by
      rw [holdsToken_generating hholds]
      decide
    have hdone : TurnInv (setTurn db.chat (completeTurn db.now answer insufficient turn)) :=
      h.setTurn hmem rfl rfl hopen consistent fun hgen => nomatch hgen
    refine hdone.cite fun c hc => ?_
    obtain ⟨hturn, hrank⟩ := mem_citationRows hc
    obtain ⟨s, hsmem, hsturn, hsrank⟩ := stored c.sourceRank hrank
    exact ⟨completeTurn db.now answer insufficient turn, setTurn_mem hmem rfl, hturn.symm, rfl,
      s, hsmem, hsturn.trans hturn.symm, hsrank⟩
  | repair => exact h.repair

/-- A turn that answered, or that lost its access, keeps its row. -/
theorem ChatStep.keepsTerminal (hs : ChatStep db call chat) (h : TurnInv db.chat)
    (ht : t ∈ db.chat.turns) (hterminal : t.status = .complete ∨ t.status = .accessRevoked)
    (hkeep : ∀ token, call ≠ .deleteChat token t.chatId) : t ∈ chat.turns := by
  -- a turn that is written has another status, so it is another turn
  have hother : ∀ {turn : ChatTurn}, turn ∈ db.chat.turns → turn.status ≠ .complete →
      turn.status ≠ .accessRevoked → t.id ≠ turn.id := by
    intro turn hturn hcomplete hrevoked hid
    rw [h.turns.eq ht hturn hid] at hterminal
    exact hterminal.elim hcomplete hrevoked
  have hgenerating : ∀ {turn : ChatTurn}, turn ∈ db.chat.turns → turn.status = .generating →
      t.id ≠ turn.id := by
    intro turn hturn hgen
    exact hother hturn (by rw [hgen]; decide) (by rw [hgen]; decide)
  cases hs with
  | same => exact ht
  | elsewhere step =>
    obtain ⟨sources, _, rfl⟩ := step
    exact ht
  | create => exact ht
  | delete =>
    refine mem_deleteWhere.mpr ⟨ht, decide_eq_false fun hown => ?_⟩
    exact hkeep _ (by rw [hown])
  | scope => exact ht
  | beginTurn => exact List.mem_append_left _ ht
  | store => exact ht
  | ended mem generating =>
    have hne := hgenerating mem generating
    exact mem_setTurn_of_ne ht hne
  | @retry _ _ _ _ turn mem retryable _ _ =>
    obtain ⟨hcomplete, hrevoked⟩ := isRetryable_stopped retryable
    have hne := hother mem hcomplete hrevoked
    have hkept : t ∈ (clearedSources db turn).chat.turns := by
      rw [clearedSources_turns]
      exact ht
    exact mem_setTurn_of_ne hkept hne
  | finalize held =>
    obtain ⟨hmem, _, _, hholds⟩ := heldTurn_some held
    have hne := hgenerating hmem (holdsToken_generating hholds)
    exact mem_setTurn_of_ne ht hne
  | repair =>
    refine mem_updateWhere.mpr ⟨t, ht, if_neg ?_⟩
    rcases hterminal with hstatus | hstatus <;> simp [hstatus]

/-- A turn's token was its token before the step, or the call drew it. -/
theorem ChatStep.token (hs : ChatStep db call chat) (ht : t ∈ chat.turns) {drawn : LeaseToken}
    (htoken : t.generationToken = some drawn) :
    call.drawn = some drawn ∨
      ∃ t₀ ∈ db.chat.turns, t₀.id = t.id ∧ t₀.generationToken = some drawn := by
  -- a row of the table as it was
  have hwas : t ∈ db.chat.turns → call.drawn = some drawn ∨
      ∃ t₀ ∈ db.chat.turns, t₀.id = t.id ∧ t₀.generationToken = some drawn :=
    fun hmem => Or.inr ⟨t, hmem, rfl, htoken⟩
  cases hs with
  | same => exact hwas ht
  | elsewhere step =>
    obtain ⟨sources, _, rfl⟩ := step
    exact hwas ht
  | create => exact hwas ht
  | delete => exact hwas (mem_deleteWhere.mp ht).1
  | scope => exact hwas ht
  | beginTurn =>
    rcases List.mem_append.mp ht with hold | hnew
    · exact hwas hold
    · rw [List.mem_singleton.mp hnew] at htoken
      exact Or.inl htoken
  | store => exact hwas ht
  | ended =>
    rcases mem_setTurn ht with rfl | ⟨hold, _⟩
    · cases htoken
    · exact hwas hold
  | @retry _ _ _ _ turn =>
    rcases mem_setTurn ht with rfl | ⟨hold, _⟩
    · exact Or.inl htoken
    · rw [clearedSources_turns] at hold
      exact hwas hold
  | finalize =>
    rcases mem_setTurn ht with rfl | ⟨hold, _⟩
    · cases htoken
    · exact hwas hold
  | repair =>
    obtain ⟨t₀, ht₀, rfl⟩ := mem_updateWhere.mp ht
    split at htoken
    · cases htoken
    next hnot =>
      rw [if_neg hnot] at hwas ⊢
      exact hwas ht₀

/-! ## Completion -/

/-- The source may be shown: its document is there and can be read, or its owner
could read it when it was deleted. -/
def isAuthorized (db : Db) (token : Option HexText) (s : TurnSource) : Bool :=
  match s.documentId with
  | none => s.ownerAuthorizedAtDeletion = some true
  | some d => v4CanReadDocument db token d

/-- A source with a disposition that is not revoked is authorized. -/
theorem isAuthorized_of_not_revoked {token : Option HexText} {s : TurnSource}
    (hdisposed : isDisposed s = true) (h : isRevoked db token s = false) :
    isAuthorized db token s = true := by
  unfold isRevoked at h
  unfold isAuthorized
  cases hd : s.documentId with
  | none =>
    rw [hd] at h
    have hset : s.ownerAuthorizedAtDeletion ≠ none :=
      (isDisposed_iff.mp hdisposed).resolve_left fun hne => hne hd
    cases hown : s.ownerAuthorizedAtDeletion with
    | none => exact absurd hown hset
    | some authorized =>
      cases authorized with
      | true => rfl
      | false => simp [hown] at h
  | some d =>
    rw [hd] at h
    simpa using h

/-- The call finalizes the turn for its owner, with every stored source authorized. -/
def Finalizes (db : Db) (call : ChatCall) (t : ChatTurn) : Prop :=
  ∃ token generationToken answer insufficientContext ranks,
    call = .finalizeTurn token t.id generationToken answer insufficientContext ranks ∧
    (ownedChat db token t.chatId).isSome ∧
    ∀ s ∈ db.chat.sources, s.turnId = t.id → isAuthorized db token s = true

/-- A complete turn was complete before, or the call finalizes it. -/
theorem ChatStep.completes (hs : ChatStep db call chat) (h : TurnInv db.chat)
    (ht : t ∈ chat.turns) (hcomplete : t.status = .complete) :
    t ∈ db.chat.turns ∨ Finalizes db call t := by
  cases hs with
  | same => exact Or.inl ht
  | elsewhere step =>
    obtain ⟨sources, _, rfl⟩ := step
    exact Or.inl ht
  | create => exact Or.inl ht
  | delete => exact Or.inl (mem_deleteWhere.mp ht).1
  | scope => exact Or.inl ht
  | beginTurn =>
    rcases List.mem_append.mp ht with hold | hnew
    · exact Or.inl hold
    · rw [List.mem_singleton.mp hnew] at hcomplete
      cases hcomplete
  | store => exact Or.inl ht
  | ended _ _ unanswered =>
    rcases mem_setTurn ht with rfl | ⟨hold, _⟩
    · exact absurd hcomplete unanswered
    · exact Or.inl hold
  | retry =>
    rcases mem_setTurn ht with rfl | ⟨hold, _⟩
    · cases hcomplete
    · rw [clearedSources_turns] at hold
      exact Or.inl hold
  | finalize held authorized =>
    rcases mem_setTurn ht with rfl | ⟨hold, _⟩
    · obtain ⟨_, _, howned, _⟩ := heldTurn_some held
      refine Or.inr ⟨_, _, _, _, _, rfl, howned, fun s hmem hturn => ?_⟩
      refine isAuthorized_of_not_revoked (h.disposed s hmem) ?_
      rw [hasRevokedSource, List.any_eq_false] at authorized
      have hs := authorized s hmem
      by_contra hrevoked
      exact hs (by simpa using ⟨hturn, by simpa using hrevoked⟩)
    · exact Or.inl hold
  | repair =>
    obtain ⟨t₀, ht₀, rfl⟩ := mem_updateWhere.mp ht
    split at hcomplete
    · cases hcomplete
    next hnot =>
      rw [if_neg hnot]
      exact Or.inl ht₀

/-! ## A token that is not current -/

/-- No turn of that id is under the token. -/
def IsStale (db : Db) (turnId : TurnId) (generationToken : Option LeaseToken) : Prop :=
  ∀ t ∈ db.chat.turns, t.id = turnId → generationToken = none ∨ t.generationToken ≠ generationToken

variable {generationToken : Option LeaseToken}

theorem IsStale.holdsToken (h : IsStale db turnId generationToken) (ht : t ∈ db.chat.turns)
    (hid : t.id = turnId) : holdsToken generationToken t = false := by
  rw [LocalRag.Chat.holdsToken, decide_eq_false_iff_not]
  rintro ⟨_, hsome, hsame⟩
  exact (h t ht hid).elim hsome fun hne => hne hsame

theorem IsStale.heldTurn (h : IsStale db turnId generationToken) (token : Option HexText) :
    heldTurn db token turnId generationToken = none := by
  rw [LocalRag.Chat.heldTurn, List.find?_eq_none]
  intro t ht hheld
  simp only [Bool.decide_and, Bool.decide_eq_true, Bool.and_eq_true, decide_eq_true_eq] at hheld
  rw [h.holdsToken ht hheld.1] at hheld
  cases hheld.2.2

theorem IsStale.endTurn (h : IsStale db turnId generationToken) (token : Option HexText)
    (chatId : ChatId) (status : TurnStatus) (partialAnswer : Option String) (error : String)
    (already done : TurnResult) :
    LocalRag.Core.commit db (endTurn db token chatId turnId generationToken status partialAnswer
      error already done) = db := by
  unfold LocalRag.Chat.endTurn
  split
  · rfl
  split
  · rfl
  next turn hfind =>
    have hid := List.find?_some hfind
    simp only [decide_eq_true_eq] at hid
    have hnot := h.holdsToken (List.mem_of_find?_eq_some hfind) hid.1
    split
    · rfl
    · rw [if_pos (by simp [hnot])]
      rfl

/-- A call that presents a stale token changes nothing. -/
theorem chatStep_stale (hcall : call.presented = some (turnId, generationToken))
    (h : IsStale db turnId generationToken) : chatStep db call = db := by
  cases call with
  | storeTurnSources token i g sources =>
    obtain ⟨rfl, rfl⟩ := Prod.mk.inj (Option.some.inj hcall)
    simp only [chatStep, v4StoreTurnSources, h.heldTurn token, commit_error]
  | failTurn token i g error =>
    obtain ⟨rfl, rfl⟩ := Prod.mk.inj (Option.some.inj hcall)
    simp only [chatStep, v4FailTurn, h.heldTurn token, commit_ok]
  | interruptTurn token chatId i g =>
    obtain ⟨rfl, rfl⟩ := Prod.mk.inj (Option.some.inj hcall)
    exact h.endTurn token chatId _ _ _ _ _
  | markTurnLengthLimited token chatId i g partialAnswer =>
    obtain ⟨rfl, rfl⟩ := Prod.mk.inj (Option.some.inj hcall)
    show LocalRag.Core.commit db (v4MarkTurnLengthLimited db token chatId i g partialAnswer) = db
    unfold v4MarkTurnLengthLimited
    split
    · rfl
    · exact h.endTurn token chatId _ _ _ _ _
  | markTurnCitationFailed token chatId i g partialAnswer =>
    obtain ⟨rfl, rfl⟩ := Prod.mk.inj (Option.some.inj hcall)
    show LocalRag.Core.commit db (v4MarkTurnCitationFailed db token chatId i g partialAnswer) = db
    unfold v4MarkTurnCitationFailed
    split
    · rfl
    · exact h.endTurn token chatId _ _ _ _ _
  | markTurnAccessRevoked token i g =>
    obtain ⟨rfl, rfl⟩ := Prod.mk.inj (Option.some.inj hcall)
    simp only [chatStep, v4MarkTurnAccessRevoked, h.heldTurn token, commit_ok]
  | markTurnAccessRevokedTrusted i g =>
    obtain ⟨rfl, rfl⟩ := Prod.mk.inj (Option.some.inj hcall)
    show LocalRag.Core.commit db (v4MarkTurnAccessRevokedTrusted db i g) = db
    unfold v4MarkTurnAccessRevokedTrusted
    split
    · rfl
    next turn hfind =>
      have hid : turn.id = i := by simpa using List.find?_some hfind
      have hnot := h.holdsToken (List.mem_of_find?_eq_some hfind) hid
      split
      · rfl
      · rw [if_pos (by simp [hnot])]
        rfl
  | finalizeTurn token i g answer insufficient ranks =>
    obtain ⟨rfl, rfl⟩ := Prod.mk.inj (Option.some.inj hcall)
    show LocalRag.Core.commit db (v4FinalizeTurn db token i g answer insufficient ranks) = db
    unfold v4FinalizeTurn
    split
    · rfl
    split
    · rfl
    · rw [h.heldTurn token]
      rfl
  | _ => cases hcall

/-! ## Every run -/

theorem turnInv_run (h : TurnInv db.chat) (calls : List ChatCall) :
    TurnInv (run chatStep db calls).chat :=
  run_inv_of_step (fun db : Db => TurnInv db.chat)
    (fun db call hdb => (chatStep_chat db call).turnInv hdb) calls h

/-- A terminal row stays until its chat is deleted. -/
theorem terminal_run (h : TurnInv db.chat) {calls : List ChatCall} (ht : t ∈ db.chat.turns)
    (hterminal : t.status = .complete ∨ t.status = .accessRevoked)
    (hkeep : ∀ token, .deleteChat token t.chatId ∉ calls) :
    t ∈ (run chatStep db calls).chat.turns := by
  induction calls generalizing db with
  | nil => exact ht
  | cons call calls ih =>
    have hstep := chatStep_chat db call
    refine ih (hstep.turnInv h) ?_ fun token hmem => hkeep token (List.mem_cons_of_mem _ hmem)
    refine hstep.keepsTerminal h ht hterminal fun token heq => hkeep token ?_
    rw [heq]
    exact List.mem_cons_self

/-- A token that is not current becomes so again only if it is drawn. -/
theorem stale_run {calls : List ChatCall} {drawn : LeaseToken}
    (hfresh : ∀ call ∈ calls, call.drawn ≠ some drawn) (h : IsStale db turnId (some drawn)) :
    IsStale (run chatStep db calls) turnId (some drawn) := by
  induction calls generalizing db with
  | nil => exact h
  | cons call calls ih =>
    refine ih (fun c hc => hfresh c (List.mem_cons_of_mem _ hc)) fun t ht hid => Or.inr ?_
    intro htoken
    rcases (chatStep_chat db call).token ht htoken with hdrawn | ⟨t₀, ht₀, hid₀, htoken₀⟩
    · exact hfresh call List.mem_cons_self hdrawn
    · exact (h t₀ ht₀ (hid₀.trans hid)).elim nofun fun hne => hne htoken₀

/-- What the turns of every chat satisfy. -/
structure TurnsHold (chat : ChatStore) : Prop where
  oneGenerating : ∀ t ∈ chat.turns, ∀ t' ∈ chat.turns, t.chatId = t'.chatId →
    t.status = .generating → t'.status = .generating → t = t'
  /-- In creation order the ordinals of a chat are `1, 2, …, n`. -/
  ordinals : ∀ chatId,
    (turnsOf chat chatId).map (·.ordinal) = List.range' 1 (turnsOf chat chatId).length
  citations : ∀ c ∈ chat.citations,
    (∃ t ∈ chat.turns, t.id = c.turnId ∧ t.status = .complete) ∧
    ∃ s ∈ chat.sources, s.turnId = c.turnId ∧ s.rank = c.sourceRank
  answers : ∀ t ∈ chat.turns, t.finalAnswer ≠ none ↔ t.status = .complete

theorem finalAnswer_iff (h : statusConsistent t = true) :
    t.finalAnswer ≠ none ↔ t.status = .complete := by
  unfold statusConsistent at h
  cases hstatus : t.status <;> rw [hstatus] at h <;> dsimp only at h <;>
    simp only [decide_eq_true_eq] at h
  case complete =>
    refine iff_of_true ?_ rfl
    intro hnone
    simp [hnone] at h
  all_goals
    refine iff_of_false ?_ nofun
    simp [h]

theorem TurnInv.holds (h : TurnInv chat) : TurnsHold chat := by
  refine ⟨h.one, ?_, ?_, fun t ht => finalAnswer_iff (h.consistent t ht)⟩
  · intro chatId
    by_cases hexists : ∃ c ∈ chat.chats, c.id = chatId
    · obtain ⟨c, hc, rfl⟩ := hexists
      obtain ⟨n, _, hrange⟩ := h.ordinals c hc
      have hlength : (turnsOf chat c.id).length = n := by
        simpa using congrArg List.length hrange
      rw [hlength]
      exact hrange
    · -- a chat that does not exist has no turns
      have hnone : turnsOf chat chatId = [] := by
        rw [turnsOf, List.filter_eq_nil_iff]
        intro t ht hown
        obtain ⟨c, hc, hid⟩ := h.owned t ht
        exact hexists ⟨c, hc, hid.trans (by simpa using hown)⟩
      rw [hnone]
      rfl
  · intro c hc
    obtain ⟨t, ht, hid, hcomplete, hsource⟩ := h.cited c hc
    exact ⟨⟨t, ht, hid, hcomplete⟩, hsource⟩

/-- From a database without chats, in every state `s` a run reaches: the turns are as
`TurnsHold` says; a call under a token that is not the turn's current one changes
nothing, and such a token never becomes current again unless it is drawn again; a turn
that is complete or lost its access stays as it is; and a turn becomes complete only by
a finalization that found every stored source authorized. -/
theorem turns_run (h : db.chat = ⟨[], [], [], []⟩) (calls : List ChatCall) :
    TurnsHold (run chatStep db calls).chat ∧
    (∀ call turnId generationToken, call.presented = some (turnId, generationToken) →
      IsStale (run chatStep db calls) turnId generationToken →
      chatStep (run chatStep db calls) call = run chatStep db calls) ∧
    (∀ turnId drawn later, (∀ call ∈ later, call.drawn ≠ some drawn) →
      IsStale (run chatStep db calls) turnId (some drawn) →
      IsStale (run chatStep db (calls ++ later)) turnId (some drawn)) ∧
    (∀ t ∈ (run chatStep db calls).chat.turns,
      t.status = .complete ∨ t.status = .accessRevoked →
      ∀ later, (∀ token, .deleteChat token t.chatId ∉ later) →
        t ∈ (run chatStep db (calls ++ later)).chat.turns) ∧
    (∀ call, ∀ t ∈ (chatStep (run chatStep db calls) call).chat.turns, t.status = .complete →
      t ∈ (run chatStep db calls).chat.turns ∨ Finalizes (run chatStep db calls) call t) := by
  have hinv : TurnInv (run chatStep db calls).chat := by
    refine turnInv_run ?_ calls
    rw [h]
    exact turnInv_empty
  refine ⟨hinv.holds, fun _ _ _ hcall hstale => chatStep_stale hcall hstale, ?_, ?_, ?_⟩
  · intro turnId drawn later hfresh hstale
    rw [run_append]
    exact stale_run hfresh hstale
  · intro t ht hterminal later hkeep
    rw [run_append]
    exact terminal_run hinv ht hterminal hkeep
  · intro call t ht hcomplete
    exact (chatStep_chat _ call).completes hinv ht hcomplete

/-- A turn that fails, is tried again and is answered. -/
def sampleTurn : List ChatCall :=
  [.createChat (some (.digest 1)) 1 "Policy" "all_ready",
    .beginTurn (some (.digest 1)) 1 "What is the policy?" (some 7) "Policy" 1,
    .failTurn (some (.digest 1)) 1 (some 7) "generation_failed",
    .retryTurn (some (.digest 1)) 1 1 (some 8),
    .finalizeTurn (some (.digest 1)) 1 (some 8) (some "None.") true []]

/-- The turn stays complete, and the first attempt's token does nothing to it. -/
theorem turns_run_sampleTurn :
    (∀ t ∈ (run chatStep sampleDb sampleTurn).chat.turns, t.status = .complete →
      t ∈ (run chatStep sampleDb
        (sampleTurn ++ [.failTurn (some (.digest 1)) 1 (some 7) "late"])).chat.turns) ∧
    ((run chatStep sampleDb sampleTurn).chat.turns.map fun t => (t.status, t.attempt)) =
      [(.complete, 2)] := by
  refine ⟨fun t ht hcomplete => ?_, by decide +kernel⟩
  refine (@turns_run sampleDb rfl sampleTurn).2.2.2.1 t ht (Or.inl hcomplete) _ ?_
  intro token hmem
  cases List.mem_singleton.mp hmem

end LocalRag.Chat
