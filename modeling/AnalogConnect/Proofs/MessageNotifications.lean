import AnalogConnect.Library.Picking
import AnalogConnect.MessageNotifications

/-!
# What message notifications announce

After the first poll an item is shown when it is unread, received and newer than its conversation
was when last polled (`shown_eq`), so no revision newer than all before it is missed. As the time
kept is the last polled and not the greatest, a revision is shown again when its conversation has
gone back in between, and only then (`message_notifications`).
-/

namespace AnalogConnect

open Picking

namespace MessageNotificationTracker

variable {past items : List ConversationSummary} {item : ConversationSummary}

/-- The time a conversation had when last polled. -/
def lastTime (past : List ConversationSummary) (id : String) : Option ℤ :=
  (past.filter (·.id = id)).getLast?.map (·.latestUnixMillis)

/-- An unread item of another's message. -/
def IsNews (item : ConversationSummary) : Prop := 0 < item.unreadCount ∧ item.latestSent = false

/-- An item newer than its conversation when last polled, if it was. -/
def Rises (past : List ConversationSummary) (item : ConversationSummary) : Prop :=
  ∀ time ∈ lastTime past item.id, time < item.latestUnixMillis

instance (item : ConversationSummary) : Decidable (IsNews item) :=
  inferInstanceAs (Decidable (_ ∧ _))

instance (past : List ConversationSummary) (item : ConversationSummary) :
    Decidable (Rises past item) :=
  inferInstanceAs (Decidable (∀ time ∈ lastTime past item.id, time < item.latestUnixMillis))

def announces (past : List ConversationSummary) (item : ConversationSummary) : Bool :=
  decide (IsNews item ∧ Rises past item)

theorem lastTime_snoc : lastTime (past ++ [item]) =
    Function.update (lastTime past) item.id (some item.latestUnixMillis) := by
  funext id
  unfold lastTime
  rw [List.filter_append]
  by_cases h : item.id = id
  · subst h
    simp
  · simp [h, Function.update_of_ne (Ne.symm h)]

theorem collect_eq (initialized : Bool) : ∀ (items past : List ConversationSummary),
    collect initialized (lastTime past) items =
      (picked (fun past item => initialized && announces past item) past items,
        lastTime (past ++ items))
  | [], past => by
    rw [collect, picked, List.append_nil]
  | item :: items, past => by
    have hrest := collect_eq initialized items (past ++ [item])
    rw [lastTime_snoc, List.append_assoc, List.singleton_append] at hrest
    rw [collect, picked, hrest]
    dsimp only
    by_cases h : (initialized && announces past item) = true
    · have hcode : initialized = true ∧ 0 < item.unreadCount ∧ ¬ item.latestSent = true ∧
          ∀ time ∈ lastTime past item.id, time < item.latestUnixMillis := by
        simpa [announces, IsNews, Rises, and_assoc] using h
      rw [if_pos h, if_pos hcode]
    · have hcode : ¬ (initialized = true ∧ 0 < item.unreadCount ∧ ¬ item.latestSent = true ∧
          ∀ time ∈ lastTime past item.id, time < item.latestUnixMillis) := fun hcode => by
        refine h ?_
        simpa [announces, IsNews, Rises, and_assoc] using hcode
      rw [if_neg h, if_neg hcode]

/-- The tracker once a page was polled, after all that is past. -/
def polled (past : List ConversationSummary) : MessageNotificationTracker where
  latest := lastTime past
  initialized := true

theorem update_new (page : List ConversationSummary) : new.update page = ([], polled page) := by
  have hnone : picked (fun past item => false && announces past item) [] page = [] := by
    refine List.eq_nil_iff_forall_not_mem.2 fun item hitem => ?_
    obtain ⟨before, after, -, h⟩ := mem_picked.1 hitem
    cases h
  have hcollect := collect_eq false page []
  rw [hnone, List.nil_append] at hcollect
  have hstart : new.latest = lastTime [] := rfl
  unfold update
  rw [hstart, show new.initialized = false from rfl, hcollect]
  rfl

theorem update_polled (past page : List ConversationSummary) :
    (polled past).update page = (picked announces past page, polled (past ++ page)) := by
  have hcollect := collect_eq true page past
  simp only [Bool.true_and] at hcollect
  unfold update
  rw [show (polled past).initialized = true from rfl, show (polled past).latest = lastTime past
    from rfl, hcollect]
  rfl

theorem after_polled : ∀ (pages : List (List ConversationSummary))
    (past : List ConversationSummary),
    polls.after (polled past) pages = polled (past ++ pages.flatten)
  | [], past => by rw [List.flatten_nil, List.append_nil]; rfl
  | page :: pages, past => by
    have hstep : (polls.step (polled past) page).2 = polled (past ++ page) :=
      congrArg Prod.snd (update_polled past page)
    rw [Transducer.after, hstep, after_polled pages, List.flatten_cons, List.append_assoc]

theorem trace_polled : ∀ (pages : List (List ConversationSummary))
    (past : List ConversationSummary),
    (polls.trace (polled past) pages).flatMap (·.2) = picked announces past pages.flatten
  | [], past => rfl
  | page :: pages, past => by
    have hstep : polls.step (polled past) page =
        (picked announces past page, polled (past ++ page)) := update_polled past page
    rw [Transducer.trace, hstep, List.flatMap_cons, trace_polled pages, List.flatten_cons,
      picked_append]

theorem shown_eq (first : List ConversationSummary) (later : List (List ConversationSummary)) :
    shown (first :: later) = picked announces first later.flatten := by
  have hstep : polls.step new first = ([], polled first) := update_new first
  rw [shown, Transducer.trace, hstep, List.flatMap_cons, trace_polled, List.nil_append]

/-- What a poll after the first shows. -/
theorem answer_eq (first page : List ConversationSummary)
    (before : List (List ConversationSummary)) :
    (polls.step (polls.after new (first :: before)) page).1 =
      picked announces (first ++ before.flatten) page := by
  have hstep : (polls.step new first).2 = polled first := congrArg Prod.snd (update_new first)
  rw [Transducer.after, hstep, after_polled]
  exact congrArg Prod.fst (update_polled _ page)

theorem answer_picked : ∀ (pages : List (List ConversationSummary))
    (past : List ConversationSummary), ∀ answer ∈ polls.trace (polled past) pages,
    ∃ earlier, answer.2 = picked announces earlier answer.1
  | [], past => by simp [Transducer.trace]
  | page :: pages, past => by
    have hstep : polls.step (polled past) page =
        (picked announces past page, polled (past ++ page)) := update_polled past page
    rw [Transducer.trace, hstep]
    intro answer hanswer
    rcases List.mem_cons.1 hanswer with rfl | hanswer
    · exact ⟨past, rfl⟩
    · exact answer_picked pages _ answer hanswer

theorem lastTime_append (past later : List ConversationSummary) (id : String) :
    lastTime (past ++ later) id = (lastTime later id).or (lastTime past id) := by
  unfold lastTime
  rw [List.filter_append, List.getLast?_append, Option.map_or]

theorem lastTime_cons (later : List ConversationSummary) :
    lastTime (item :: later) item.id =
      (lastTime later item.id).or (some item.latestUnixMillis) := by
  have hsingle : lastTime [item] item.id = some item.latestUnixMillis := by
    simp [lastTime]
  rw [← List.singleton_append, lastTime_append, hsingle]

/-- An item newer than all those of its conversation before it is newer than the last. -/
theorem rises_of_newest (h : ∀ earlier ∈ past, earlier.id = item.id →
    earlier.latestUnixMillis < item.latestUnixMillis) : Rises past item := by
  intro time htime
  obtain ⟨earlier, hearlier, rfl⟩ := Option.map_eq_some_iff.1 htime
  obtain ⟨hmem, hid⟩ := List.mem_filter.1 (List.mem_of_getLast? hearlier)
  exact h earlier hmem (of_decide_eq_true hid)

def revision (item : ConversationSummary) : String × ℤ := (item.id, item.latestUnixMillis)

/-- A conversation that was shown at a time goes back and is then again unread at that time. -/
def Returns (first later : List ConversationSummary) : Prop :=
  ∃ before earlier between item after,
    later = before ++ earlier :: (between ++ item :: after) ∧ revision earlier = revision item ∧
      IsNews earlier ∧ Rises (first ++ before) earlier ∧ IsNews item ∧
        ∃ time ∈ lastTime between item.id, time < item.latestUnixMillis

/-- After an item of a time, only an older one lets another of that time rise. -/
theorem rises_again {earlier : ConversationSummary} {between : List ConversationSummary}
    (h : revision earlier = revision item) : Rises (past ++ earlier :: between) item ↔
      ∃ time ∈ lastTime between item.id, time < item.latestUnixMillis := by
  obtain ⟨hid, htime⟩ := Prod.mk.inj h
  have hlast : lastTime (past ++ earlier :: between) item.id =
      (lastTime between item.id).or (some item.latestUnixMillis) := by
    rw [lastTime_append, ← hid, lastTime_cons, htime, Option.or_assoc, Option.some_or]
  unfold Rises
  rw [hlast]
  cases lastTime between item.id with
  | none => simp
  | some time => simp

theorem nodup_revisions (first : List ConversationSummary)
    (later : List (List ConversationSummary)) :
    ((shown (first :: later)).map revision).Nodup ↔ ¬ Returns first later.flatten := by
  rw [shown_eq, List.Nodup, List.pairwise_map, pairwise_picked]
  constructor
  · rintro h ⟨before, earlier, between, item, after, hsplit, hrevision, hearlier, hrises, hitem,
      hback⟩
    refine h before earlier between item after hsplit (decide_eq_true ⟨hearlier, hrises⟩)
      (decide_eq_true ⟨hitem, ?_⟩) hrevision
    exact (rises_again hrevision).2 hback
  · intro h before earlier between item after hsplit hearlier hitem hrevision
    obtain ⟨hearlier, hrises⟩ := of_decide_eq_true hearlier
    obtain ⟨hitem, hagain⟩ := of_decide_eq_true hitem
    exact h ⟨before, earlier, between, item, after, hsplit, hrevision, hearlier, hrises, hitem,
      (rises_again hrevision).1 hagain⟩

/-- Nothing is shown of the first page, and of the others only unread received items, of which
those newer than all before them of their conversation are never missed. A revision is shown twice
exactly when a conversation returns to it. -/
theorem message_notifications (pages : List (List ConversationSummary)) :
    (∀ answer ∈ (polls.trace new pages).head?, answer.2 = []) ∧
      (∀ answer ∈ polls.trace new pages, answer.2.Sublist answer.1 ∧
        ∀ item ∈ answer.2, 0 < item.unreadCount ∧ item.latestSent = false) ∧
      (∀ before page after items item rest, pages = before ++ page :: after → before ≠ [] →
        page = items ++ item :: rest → 0 < item.unreadCount ∧ item.latestSent = false →
          (∀ earlier ∈ before.flatten ++ items, earlier.id = item.id →
            earlier.latestUnixMillis < item.latestUnixMillis) →
              item ∈ (polls.step (polls.after new before) page).1) ∧
      (((shown pages).map fun item => (item.id, item.latestUnixMillis)).Nodup ↔
        ¬ Returns (pages.headD []) pages.tail.flatten) := by
  cases pages with
  | nil =>
    have hnone : ¬ Returns [] [] := by
      rintro ⟨before, earlier, between, item, after, hsplit, -⟩
      simp at hsplit
    refine ⟨fun _ h => (nomatch h), fun _ h => (nomatch h), ?_,
      iff_of_true List.nodup_nil hnone⟩
    intro before page after items item rest hpages
    simp at hpages
  | cons first later =>
    have hstep : polls.step new first = ([], polled first) := update_new first
    have htrace : polls.trace new (first :: later) =
        (first, []) :: polls.trace (polled first) later := by
      rw [Transducer.trace, hstep]
    refine ⟨?_, ?_, ?_, nodup_revisions first later⟩
    · intro answer hanswer
      rw [htrace] at hanswer
      obtain rfl := Option.some.inj hanswer
      rfl
    · intro answer hanswer
      rw [htrace] at hanswer
      rcases List.mem_cons.1 hanswer with rfl | hanswer
      · exact ⟨List.nil_sublist _, fun _ h => by cases h⟩
      · obtain ⟨earlier, heq⟩ := answer_picked later first answer hanswer
        rw [heq]
        refine ⟨picked_sublist _ _, fun item hitem => ?_⟩
        obtain ⟨before, after, -, hannounced⟩ := mem_picked.1 hitem
        exact (of_decide_eq_true hannounced).1
    · intro before page after items item rest hpages hbefore hpage hitem hnewest
      obtain ⟨first', before, rfl⟩ := List.exists_cons_of_ne_nil hbefore
      obtain ⟨rfl, -⟩ := List.cons.inj hpages
      rw [List.flatten_cons] at hnewest
      rw [answer_eq, hpage]
      exact mem_picked.2 ⟨items, rest, rfl, decide_eq_true ⟨hitem, rises_of_newest hnewest⟩⟩

/-- A conversation of one message, unread. -/
def unreadSummary (latestUnixMillis : ℤ) : ConversationSummary where
  id := "aaaaaaaaaaaaaaaaaaaaaaaaaaaaaaaa"
  displayAddress := "synthetic"
  displayName := none
  group := false
  replySupported := false
  latestUnixMillis
  messageCount := 1
  unreadCount := 1
  latestOutgoingState := none
  kind := "private"
  title := "Synthetic Person"
  canReply := false
  identityConflict := false
  latestPreview := "Hello"
  latestSender := ""
  latestSent := false

/-- The latest message is deleted and the conversation, back at the one before, takes its time
again. -/
theorem revision_shown_twice : (∀ time ∈ [(100 : ℤ), 101], (unreadSummary time).invalid = false) ∧
    ¬ ((shown ([100, 101, 100, 101].map fun time => [unreadSummary time])).map fun item =>
      (item.id, item.latestUnixMillis)).Nodup := by
  refine ⟨by decide, ?_⟩
  decide

end MessageNotificationTracker

end AnalogConnect
