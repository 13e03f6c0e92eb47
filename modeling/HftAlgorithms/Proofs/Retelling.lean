/-
Module: HftAlgorithms.Proofs.Retelling
Purpose: What becomes of an order that is shown as it stood after some of its
  messages when the last of them are told again.
Trusted boundary: none
Main exports: restAfter, Replaced, CountedOnce, restAfter_retold_iff, entry_retold_iff
-/
import HftAlgorithms.Proofs.OrderLife

namespace HftAlgorithms

/-! ### Once an order rests -/

/-- A MODIFY_ORDER message. -/
def BookMsg.isModify : BookMsg → Bool
  | .modifyOrder _ => true
  | _ => false

/-- The quantity a TRADE takes; no other message takes any. -/
def BookMsg.traded : BookMsg → UInt32
  | .trade msg => msg.quantity
  | _ => 0

/-- The entry after messages none of which can bring the order back. -/
def restAfter (entry : Option OrderInfo) (msgs : List BookMsg) : Option OrderInfo :=
  msgs.foldl (fun entry msg => entry.bind fun info => info.rest msg) entry

@[simp] theorem restAfter_nil (entry : Option OrderInfo) : restAfter entry [] = entry := rfl

@[simp] theorem restAfter_cons (info : OrderInfo) (msg : BookMsg) (msgs : List BookMsg) :
    restAfter (some info) (msg :: msgs) = restAfter (info.rest msg) msgs := rfl

@[simp] theorem restAfter_none (msgs : List BookMsg) : restAfter none msgs = none := by
  induction msgs with
  | nil => rfl
  | cons msg msgs inductionHypothesis => exact inductionHypothesis

theorem restAfter_append (entry : Option OrderInfo) (first second : List BookMsg) :
    restAfter entry (first ++ second) = restAfter (restAfter entry first) second :=
  List.foldl_append

/-- Without a NEW_ORDER, an order only rests on. -/
theorem foldl_entryStep_of_noNew {msgs : List BookMsg} (noNew : ∀ msg ∈ msgs, msg.isNew = false)
    (entry : Option OrderInfo) : msgs.foldl entryStep entry = restAfter entry msgs := by
  induction msgs generalizing entry with
  | nil => rfl
  | cons msg msgs inductionHypothesis =>
      have step : entryStep entry msg = entry.bind fun info => info.rest msg := by
        cases entry with
        | some info => rfl
        | none => exact entryStep_none (noNew msg List.mem_cons_self)
      rw [List.foldl_cons, step]
      exact inductionHypothesis (fun other member => noNew other (List.mem_cons_of_mem _ member)) _

/-- What can happen to an order that still rests in the end. -/
theorem rests_cons {info last : OrderInfo} {msg : BookMsg} {msgs : List BookMsg}
    (rests : restAfter (some info) (msg :: msgs) = some last) :
    (∃ again, msg = .newOrder again ∧ restAfter (some info) msgs = some last) ∨
      (∃ change, msg = .modifyOrder change ∧
        restAfter (some (change.change info)) msgs = some last) ∨
      ∃ part, msg = .trade part ∧ part.quantity < info.quantity ∧
        restAfter (some (info.reduced part.quantity)) msgs = some last := by
  cases msg with
  | newOrder again => exact Or.inl ⟨again, rfl, rests⟩
  | deleteOrder msg =>
      rw [restAfter_cons, OrderInfo.rest, restAfter_none] at rests
      cases rests
  | modifyOrder change => exact Or.inr (Or.inl ⟨change, rfl, rests⟩)
  | trade part =>
      rw [restAfter_cons, OrderInfo.rest] at rests
      split at rests
      · rw [restAfter_none] at rests
        cases rests
      · rename_i partial_
        exact Or.inr (Or.inr ⟨part, rfl, UInt32.not_le.mp partial_, rests⟩)

/-- A resting order keeps its symbol. -/
theorem symbol_restAfter {info later : OrderInfo} {msgs : List BookMsg}
    (rests : restAfter (some info) msgs = some later) : later.symbol = info.symbol := by
  induction msgs generalizing info with
  | nil =>
      cases rests
      rfl
  | cons msg msgs inductionHypothesis =>
      rcases rests_cons rests with ⟨_, rfl, later⟩ | ⟨_, rfl, later⟩ | ⟨_, rfl, -, later⟩
      · exact inductionHypothesis later
      · have kept := inductionHypothesis later
        exact kept
      · have kept := inductionHypothesis later
        exact kept

/-! ### Told twice

A snapshot shows the order as it stood after some messages, and the last of them are told again.
A NEW_ORDER and a DELETE_ORDER told again change nothing, a MODIFY_ORDER sets everything right,
but a TRADE takes its quantity a second time. -/

/-- A MODIFY_ORDER comes before the trades have used up `quantity`. -/
def Replaced (quantity : UInt32) : List BookMsg → Prop
  | [] => False
  | .newOrder _ :: msgs => Replaced quantity msgs
  | .deleteOrder _ :: _ => False
  | .modifyOrder _ :: _ => True
  | .trade msg :: msgs => msg.quantity < quantity ∧ Replaced (quantity - msg.quantity) msgs

instance decidableReplaced : ∀ quantity msgs, Decidable (Replaced quantity msgs)
  | _, [] => isFalse not_false
  | quantity, .newOrder _ :: msgs => decidableReplaced quantity msgs
  | _, .deleteOrder _ :: _ => isFalse not_false
  | _, .modifyOrder _ :: _ => isTrue trivial
  | quantity, .trade msg :: msgs =>
      have := decidableReplaced (quantity - msg.quantity) msgs
      inferInstanceAs (Decidable (_ ∧ _))

/-- An order that is short of quantity catches up with the true one exactly when it is replaced
in time, unless the true one ends as well. -/
theorem restAfter_short_iff {info : OrderInfo} {left : UInt32} (rests : 0 < left)
    (short : left < info.quantity) (msgs : List BookMsg) :
    restAfter (some { info with quantity := left }) msgs = restAfter (some info) msgs ↔
      (restAfter (some info) msgs ≠ none → Replaced left msgs) := by
  induction msgs generalizing info left with
  | nil =>
      have different : some { info with quantity := left } ≠ some info := by
        intro same
        have quantity : left = info.quantity := congrArg OrderInfo.quantity (Option.some.inj same)
        rw [quantity] at short
        exact UInt32.lt_irrefl _ short
      simp [restAfter_nil, Replaced, different]
  | cons msg msgs inductionHypothesis =>
      cases msg with
      | newOrder msg => exact inductionHypothesis rests short
      | deleteOrder msg => simp [OrderInfo.rest]
      | modifyOrder msg => simp [OrderInfo.rest, ModifyOrder.change, Replaced]
      | trade msg =>
          rw [restAfter_cons, restAfter_cons, OrderInfo.rest, OrderInfo.rest, Replaced]
          dsimp only
          by_cases all : msg.quantity ≥ info.quantity
          · have more : msg.quantity ≥ left := UInt32.le_trans (UInt32.le_of_lt short) all
            rw [if_pos all, if_pos more]
            simp
          · rw [if_neg all]
            by_cases used : msg.quantity ≥ left
            · have notLess : ¬ msg.quantity < left := UInt32.not_lt.mpr used
              rw [if_pos used, restAfter_none]
              simp [notLess, eq_comm]
            · have less : msg.quantity < left := UInt32.not_le.mp used
              rw [if_neg used]
              have notAll : msg.quantity < info.quantity := UInt32.not_le.mp all
              have stillRests : 0 < left - msg.quantity := by
                rw [UInt32.lt_iff_toNat_lt, UInt32.toNat_sub_of_le _ _ (UInt32.le_of_lt less),
                  UInt32.toNat_zero]
                have gap := UInt32.lt_iff_toNat_lt.mp less
                omega
              have stillShort : left - msg.quantity < (info.reduced msg.quantity).quantity := by
                rw [OrderInfo.reduced, UInt32.lt_iff_toNat_lt,
                  UInt32.toNat_sub_of_le _ _ (UInt32.le_of_lt less),
                  UInt32.toNat_sub_of_le _ _ (UInt32.le_of_lt notAll)]
                have gap := UInt32.lt_iff_toNat_lt.mp less
                have gapToo := UInt32.lt_iff_toNat_lt.mp short
                omega
              have later := inductionHypothesis stillRests stillShort
              simp only [less, true_and]
              exact later

/-- What the part of the story that is told twice does to an order it left resting: a
MODIFY_ORDER reached in time leads back to where it ended. -/
theorem restAfter_retold_modify {first again last : OrderInfo} {retold : List BookMsg}
    (sameSymbol : again.symbol = first.symbol)
    (told : restAfter (some first) retold = some last)
    (modified : ∃ msg ∈ retold, msg.isModify = true) :
    restAfter (some again) retold =
      if Replaced again.quantity retold then some last else none := by
  induction retold generalizing first again with
  | nil =>
      obtain ⟨msg, member, -⟩ := modified
      exact absurd member List.not_mem_nil
  | cons msg retold inductionHypothesis =>
      rcases rests_cons told with ⟨_, rfl, later⟩ | ⟨change, rfl, later⟩ | ⟨part, rfl, -, later⟩
      · exact inductionHypothesis sameSymbol later (by simpa [BookMsg.isModify] using modified)
      · have same : change.change again = change.change first := by
          rw [ModifyOrder.change, ModifyOrder.change, sameSymbol]
        have inTime : Replaced again.quantity (.modifyOrder change :: retold) := trivial
        rw [if_pos inTime, restAfter_cons, OrderInfo.rest, same, later]
      · rw [restAfter_cons, OrderInfo.rest]
        by_cases used : part.quantity ≥ again.quantity
        · have late : ¬ Replaced again.quantity (.trade part :: retold) := fun replaced =>
            UInt32.not_lt.mpr used replaced.1
          rw [if_pos used, restAfter_none, if_neg late]
        · have inTime : part.quantity < again.quantity := UInt32.not_le.mp used
          have keeps : (again.reduced part.quantity).symbol =
              (first.reduced part.quantity).symbol := sameSymbol
          have ends := inductionHypothesis keeps later
            (by simpa [BookMsg.isModify] using modified)
          have rest : Replaced again.quantity (.trade part :: retold) ↔
              Replaced (again.reduced part.quantity).quantity retold :=
            ⟨And.right, And.intro inTime⟩
          rw [if_neg used, ends]
          exact if_congr rest.symm rfl rfl

/-- Without a MODIFY_ORDER, the order either is used up or stands at what the trades leave. -/
theorem restAfter_retold_plain {first again last : OrderInfo} {retold : List BookMsg}
    (told : restAfter (some first) retold = some last)
    (plain : ∀ msg ∈ retold, msg.isModify = false) (rests : 0 < again.quantity) :
    (restAfter (some again) retold = none ∧ ¬ (∀ msg ∈ retold, msg.traded = 0) ∧
        ∀ later, ¬ Replaced again.quantity (retold ++ later)) ∨
      ∃ left, 0 < left ∧ left ≤ again.quantity ∧
        restAfter (some again) retold = some { again with quantity := left } ∧
        (left = again.quantity ↔ ∀ msg ∈ retold, msg.traded = 0) ∧
        ∀ later, Replaced again.quantity (retold ++ later) ↔ Replaced left later := by
  induction retold generalizing first again with
  | nil => exact Or.inr ⟨again.quantity, rests, UInt32.le_refl _, rfl, by simp, fun _ => Iff.rfl⟩
  | cons msg retold inductionHypothesis =>
      have plainRest : ∀ msg ∈ retold, msg.isModify = false := fun other member =>
        plain other (List.mem_cons_of_mem _ member)
      rcases rests_cons told with ⟨_, rfl, ends⟩ | ⟨change, rfl, -⟩ | ⟨part, rfl, -, ends⟩
      · have later := inductionHypothesis ends plainRest rests
        simpa [BookMsg.traded, OrderInfo.rest, Replaced] using later
      · exact absurd (plain _ List.mem_cons_self) (by simp [BookMsg.isModify])
      · rw [restAfter_cons, OrderInfo.rest]
        by_cases used : part.quantity ≥ again.quantity
        · left
          have takes : part.quantity ≠ 0 := fun zero => by
            rw [zero] at used
            exact UInt32.not_le.mpr rests used
          refine ⟨by rw [if_pos used, restAfter_none], ?_, ?_⟩
          · intro nothing
            exact takes (nothing _ List.mem_cons_self)
          · intro later replaced
            exact UInt32.not_lt.mpr used replaced.1
        · have inTime : part.quantity < again.quantity := UInt32.not_le.mp used
          have remaining := UInt32.toNat_sub_of_le _ _ (UInt32.le_of_lt inTime)
          have gap := UInt32.lt_iff_toNat_lt.mp inTime
          have stillRests : 0 < (again.reduced part.quantity).quantity := by
            rw [OrderInfo.reduced, UInt32.lt_iff_toNat_lt, remaining, UInt32.toNat_zero]
            omega
          rw [if_neg used]
          rcases inductionHypothesis ends plainRest stillRests with
            ⟨gone, takes, late⟩ | ⟨left, positive, atMost, rested, whole, replaced⟩
          · left
            refine ⟨gone, ?_, ?_⟩
            · intro nothing
              exact takes fun other member => nothing other (List.mem_cons_of_mem _ member)
            · intro later both
              exact late later both.2
          · right
            have fewer := UInt32.le_iff_toNat_le.mp atMost
            rw [OrderInfo.reduced, remaining] at fewer
            refine ⟨left, positive, ?_, rested, ?_, ?_⟩
            · rw [UInt32.le_iff_toNat_le]
              omega
            · rw [List.forall_mem_cons, ← whole, OrderInfo.reduced, BookMsg.traded,
                ← UInt32.toNat_inj, ← UInt32.toNat_inj, ← UInt32.toNat_inj, remaining,
                UInt32.toNat_zero]
              omega
            · intro later
              rw [← replaced later]
              exact ⟨And.right, And.intro inTime⟩

/-- A MODIFY_ORDER within the first part decides whether there is one in time. -/
theorem replaced_append_of_modify {first last : OrderInfo} {retold : List BookMsg}
    (told : restAfter (some first) retold = some last)
    (modified : ∃ msg ∈ retold, msg.isModify = true) (quantity : UInt32) (later : List BookMsg) :
    Replaced quantity (retold ++ later) ↔ Replaced quantity retold := by
  induction retold generalizing first quantity with
  | nil =>
      obtain ⟨msg, member, -⟩ := modified
      exact absurd member List.not_mem_nil
  | cons msg retold inductionHypothesis =>
      rcases rests_cons told with ⟨_, rfl, ends⟩ | ⟨_, rfl, -⟩ | ⟨part, rfl, -, ends⟩
      · exact inductionHypothesis ends (by simpa [BookMsg.isModify] using modified) quantity
      · exact Iff.rfl
      · have rest := inductionHypothesis ends (by simpa [BookMsg.isModify] using modified)
          (quantity - part.quantity)
        exact and_congr_right fun _ => rest

/-- Where no trade takes anything, a MODIFY_ORDER comes in time. -/
theorem replaced_of_nothing_traded {first last : OrderInfo} {retold : List BookMsg}
    (told : restAfter (some first) retold = some last)
    (modified : ∃ msg ∈ retold, msg.isModify = true)
    (nothing : ∀ msg ∈ retold, msg.traded = 0) {quantity : UInt32} (rests : 0 < quantity) :
    Replaced quantity retold := by
  induction retold generalizing first with
  | nil =>
      obtain ⟨msg, member, -⟩ := modified
      exact absurd member List.not_mem_nil
  | cons msg retold inductionHypothesis =>
      have nothingRest : ∀ msg ∈ retold, msg.traded = 0 := fun other member =>
        nothing other (List.mem_cons_of_mem _ member)
      rcases rests_cons told with ⟨_, rfl, ends⟩ | ⟨_, rfl, -⟩ | ⟨part, rfl, -, ends⟩
      · exact inductionHypothesis ends (by simpa [BookMsg.isModify] using modified) nothingRest
      · trivial
      · have zero : part.quantity = 0 := nothing _ List.mem_cons_self
        have rest := inductionHypothesis ends (by simpa [BookMsg.isModify] using modified)
          nothingRest
        rw [Replaced, zero, UInt32.sub_zero]
        exact ⟨rests, rest⟩

theorem none_eq_iff {entry : Option OrderInfo} {condition : Prop} (fails : ¬ condition) :
    none = entry ↔ (entry ≠ none → condition) := by
  cases entry with
  | none => simp
  | some info => simp [fails]

/-- An order that a snapshot shows as its story left it, and whose last messages are told again
before the rest, ends as it should exactly when, unless it is gone by then, the messages told
twice trade nothing or a MODIFY_ORDER comes in time. -/
theorem restAfter_retold_iff {first info : OrderInfo} {retold : List BookMsg}
    (told : restAfter (some first) retold = some info) (rests : 0 < info.quantity)
    (later : List BookMsg) :
    restAfter (some info) (retold ++ later) = restAfter (some info) later ↔
      (restAfter (some info) later ≠ none →
        (∀ msg ∈ retold, msg.traded = 0) ∨ Replaced info.quantity (retold ++ later)) := by
  rw [restAfter_append]
  by_cases modified : ∃ msg ∈ retold, msg.isModify = true
  · rw [restAfter_retold_modify (symbol_restAfter told) told modified,
      replaced_append_of_modify told modified]
    by_cases inTime : Replaced info.quantity retold
    · simp [inTime]
    · have takes : ¬ ∀ msg ∈ retold, msg.traded = 0 := fun nothing =>
        inTime (replaced_of_nothing_traded told modified nothing rests)
      rw [if_neg inTime, restAfter_none]
      exact none_eq_iff fun either => either.elim takes inTime
  · have plain : ∀ msg ∈ retold, msg.isModify = false := by
      intro msg member
      cases modifies : msg.isModify with
      | false => rfl
      | true => exact absurd ⟨msg, member, modifies⟩ modified
    rcases restAfter_retold_plain told plain rests with
      ⟨gone, takes, late⟩ | ⟨left, positive, atMost, rested, whole, replaced⟩
    · rw [gone, restAfter_none]
      exact none_eq_iff fun either => either.elim takes (late later)
    · rw [rested, replaced later]
      by_cases same : left = info.quantity
      · have nothing := whole.mp same
        rw [same]
        exact ⟨fun _ _ => Or.inl nothing, fun _ => rfl⟩
      · have takes : ¬ ∀ msg ∈ retold, msg.traded = 0 := fun nothing => same (whole.mpr nothing)
        rw [restAfter_short_iff positive (UInt32.lt_of_le_of_ne atMost same)]
        simp only [takes, false_or]

/-! ### The whole story of an order -/

/-- What keeps an order that a snapshot shows as `info` right while `retold`, the end of what the
snapshot reflects, is told again as the start of `buffered`: it cannot be stored and is told from
its NEW_ORDER on, or the messages told twice trade nothing, or a MODIFY_ORDER comes in time. -/
def CountedOnce (info : OrderInfo) (retold buffered : List BookMsg) : Prop :=
  if info.Storable then (∀ msg ∈ retold, msg.traded = 0) ∨ Replaced info.quantity buffered
  else ∃ msg ∈ buffered, msg.isNew = true

instance decidableCountedOnce (info : OrderInfo) (retold buffered : List BookMsg) :
    Decidable (CountedOnce info retold buffered) :=
  inferInstanceAs (Decidable
    (if info.Storable then (∀ msg ∈ retold, msg.traded = 0) ∨ Replaced info.quantity buffered
    else ∃ msg ∈ buffered, msg.isNew = true))

theorem foldl_entryStep_of_rests {msgs : List BookMsg} (info : OrderInfo)
    (noNew : ∀ msg ∈ msgs.tail, msg.isNew = false) :
    msgs.foldl entryStep (some info) = restAfter (some info) msgs := by
  cases msgs with
  | nil => rfl
  | cons msg msgs => exact foldl_entryStep_of_noNew noNew (info.rest msg)

/-- Where the snapshot shows the order, and the order had been announced before or with the first
message told twice. -/
theorem entry_retold_iff_of_shown {first info : OrderInfo} {retold after : List BookMsg}
    (noNew : ∀ msg ∈ (retold ++ after).tail, msg.isNew = false)
    (noNewAfter : ∀ msg ∈ after, msg.isNew = false)
    (told : retold.foldl entryStep (some first) = some info) (storable : info.Storable) :
    (retold ++ after).foldl entryStep (some info) = after.foldl entryStep (some info) ↔
      (after.foldl entryStep (some info) ≠ none → CountedOnce info retold (retold ++ after)) := by
  have noNewRetold : ∀ msg ∈ retold.tail, msg.isNew = false := by
    intro msg member
    cases retold with
    | nil => exact absurd member List.not_mem_nil
    | cons msg retold => exact noNew _ (List.mem_append_left _ member)
  rw [foldl_entryStep_of_rests first noNewRetold] at told
  rw [foldl_entryStep_of_rests info noNew, foldl_entryStep_of_noNew noNewAfter, CountedOnce,
    if_pos storable]
  exact restAfter_retold_iff told (UInt32.pos_iff_ne_zero.mpr storable.2.1) after

/-- A NEW_ORDER after which the order rests had been stored. -/
theorem exists_of_rests {msg : BookMsg} {msgs : List BookMsg} {info : OrderInfo}
    (noNew : ∀ msg ∈ msgs, msg.isNew = false)
    (rests : (msg :: msgs).foldl entryStep none = some info) :
    ∃ first, entryStep none msg = some first ∧ msgs.foldl entryStep (some first) = some info := by
  rw [List.foldl_cons] at rests
  cases stored : entryStep none msg with
  | some first => exact ⟨first, rfl, by rw [← stored]; exact rests⟩
  | none =>
      rw [stored, foldl_entryStep_of_noNew noNew, restAfter_none] at rests
      cases rests

/-- The story starts within the part told twice. -/
theorem entry_retold_iff_of_new {msg : BookMsg} {retold after : List BookMsg} {info : OrderInfo}
    (isNew : msg.isNew = true) (noNew : ∀ msg ∈ retold ++ after, msg.isNew = false)
    (shown : (msg :: retold).foldl entryStep none = some info) :
    (msg :: retold ++ after).foldl entryStep ((some info).filter fun info => info.Storable) =
        after.foldl entryStep (some info) ↔
      (after.foldl entryStep (some info) ≠ none →
        CountedOnce info (msg :: retold) (msg :: retold ++ after)) := by
  by_cases storable : info.Storable
  · obtain ⟨first, -, rests⟩ := exists_of_rests
      (fun other member => noNew other (List.mem_append_left _ member)) shown
    have ignored : entryStep (some first) msg = some first := by
      cases msg with
      | newOrder msg => rfl
      | deleteOrder msg => cases isNew
      | modifyOrder msg => cases isNew
      | trade msg => cases isNew
    have told : (msg :: retold).foldl entryStep (some first) = some info := by
      rw [List.foldl_cons, ignored, rests]
    rw [Option.filter_some_pos (by simpa using storable)]
    exact entry_retold_iff_of_shown noNew
      (fun other member => noNew other (List.mem_append_right _ member)) told storable
  · have fromNew : CountedOnce info (msg :: retold) (msg :: retold ++ after) := by
      rw [CountedOnce, if_neg storable]
      exact ⟨msg, List.mem_cons_self, isNew⟩
    rw [Option.filter_some_neg (by simpa using storable), List.foldl_append, shown]
    exact ⟨fun _ _ => fromNew, fun _ => rfl⟩

/-- The story starts before the part told twice. -/
theorem entry_retold_iff_of_noNew {retold after : List BookMsg} {first info : OrderInfo}
    (noNew : ∀ msg ∈ retold ++ after, msg.isNew = false)
    (told : retold.foldl entryStep (some first) = some info) :
    (retold ++ after).foldl entryStep ((some info).filter fun info => info.Storable) =
        after.foldl entryStep (some info) ↔
      (after.foldl entryStep (some info) ≠ none →
        CountedOnce info retold (retold ++ after)) := by
  by_cases storable : info.Storable
  · rw [Option.filter_some_pos (by simpa using storable)]
    exact entry_retold_iff_of_shown (fun other member => noNew other (List.mem_of_mem_tail member))
      (fun other member => noNew other (List.mem_append_right _ member)) told storable
  · have lost : ¬ CountedOnce info retold (retold ++ after) := by
      rw [CountedOnce, if_neg storable]
      rintro ⟨msg, member, isNew⟩
      rw [noNew msg member] at isNew
      cases isNew
    rw [Option.filter_some_neg (by simpa using storable), foldl_entryStep_of_noNew noNew,
      restAfter_none]
    exact none_eq_iff lost

/-- An order that a snapshot shows if it can be stored, and whose last messages are told again
before the rest of its story, ends as it should exactly when it is gone by then or counted
once. -/
theorem entry_retold_iff {before retold after : List BookMsg}
    (newFirst : NewFirst (before ++ retold ++ after)) :
    (retold ++ after).foldl entryStep
        (((before ++ retold).foldl entryStep none).filter fun info => info.Storable) =
      (before ++ retold ++ after).foldl entryStep none ↔
    ∀ info, (before ++ retold).foldl entryStep none = some info →
      (before ++ retold ++ after).foldl entryStep none ≠ none →
        CountedOnce info retold (retold ++ after) := by
  have whole : (before ++ retold ++ after).foldl entryStep none =
      after.foldl entryStep ((before ++ retold).foldl entryStep none) := List.foldl_append
  rw [whole]
  cases before with
  | nil =>
      rw [List.nil_append] at newFirst ⊢
      cases shown : retold.foldl entryStep none with
      | none => simp [List.foldl_append, shown]
      | some info =>
          cases retold with
          | nil => cases shown
          | cons msg retold =>
              have decided := entry_retold_iff_of_new newFirst.1 newFirst.2 shown
              rw [decided]
              simp
  | cons msg before =>
      have noNew : ∀ other ∈ retold ++ after, other.isNew = false := by
        intro other member
        have later : other ∈ before ++ retold ++ after := by
          rw [List.append_assoc]
          exact List.mem_append_right _ member
        exact newFirst.2 other later
      cases shown : (msg :: before ++ retold).foldl entryStep none with
      | none =>
          have noNewAfter : ∀ other ∈ after, other.isNew = false := fun other member =>
            noNew other (List.mem_append_right _ member)
          simp [foldl_entryStep_of_noNew noNew, foldl_entryStep_of_noNew noNewAfter]
      | some info =>
          rw [List.foldl_append] at shown
          cases reached : (msg :: before).foldl entryStep none with
          | none =>
              rw [reached, foldl_entryStep_of_noNew fun other member =>
                noNew other (List.mem_append_left _ member), restAfter_none] at shown
              cases shown
          | some first =>
              rw [reached] at shown
              rw [entry_retold_iff_of_noNew noNew shown]
              simp

end HftAlgorithms
