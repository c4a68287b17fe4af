/-
A topic's messages by partition, in the order of their offsets.

The messages a commit that moves a partition from one offset to another accounts for
are those past the first and up to the second. They grow by one message when no other
stands between.
-/

import Ddi.Kafka.Member

namespace Ddi.Kafka

structure Topic where
  messages : Int → List KafkaMessage
  own : ∀ partition message, message ∈ messages partition → message.partition = partition
  ordered : ∀ partition, (messages partition).Pairwise fun earlier later =>
    earlier.mark.offset < later.mark.offset

namespace Topic

variable (topic : Topic)

/-- The messages past `low` and up to `high`. -/
def between (partition low high : Int) : List KafkaMessage :=
  (topic.messages partition).filter fun message =>
    decide (low < message.mark.offset) && decide (message.mark.offset ≤ high)

/-- No message stands past `low` and before `high`. -/
def Clear (partition low high : Int) : Prop :=
  ∀ message, message ∈ topic.messages partition → low < message.mark.offset →
    high ≤ message.mark.offset

/-- An offset past `low` that no message stands before. -/
structure Next (partition low next : Int) : Prop where
  ahead : low < next
  clear : topic.Clear partition low next

variable {topic}

theorem between_self (partition offset : Int) : topic.between partition offset offset = [] := by
  apply List.filter_eq_nil_iff.mpr
  intro message _among
  rw [Bool.and_eq_true_iff, decide_eq_true_eq, decide_eq_true_eq]
  omega

theorem Clear.next (partition offset : Int) : topic.Clear partition offset (offset + 1) :=
  fun _message _among past => past

theorem Next.succ (partition offset : Int) : topic.Next partition offset (offset + 1) :=
  ⟨Int.lt_succ offset, .next partition offset⟩

private theorem filter_snoc {low reached : Int} {message : KafkaMessage}
    {messages : List KafkaMessage}
    (ordered : messages.Pairwise fun earlier later => earlier.mark.offset < later.mark.offset)
    (member : message ∈ messages) (above : low ≤ reached) (past : reached < message.mark.offset)
    (clear : ∀ other, other ∈ messages → reached < other.mark.offset →
      message.mark.offset ≤ other.mark.offset) :
    (messages.filter fun other => decide (low < other.mark.offset) &&
        decide (other.mark.offset ≤ message.mark.offset)) =
      (messages.filter fun other => decide (low < other.mark.offset) &&
        decide (other.mark.offset ≤ reached)) ++ [message] := by
  induction messages with
  | nil => cases member
  | cons head messages ih =>
      obtain ⟨first, rest⟩ := List.pairwise_cons.mp ordered
      by_cases within : head.mark.offset ≤ reached
      · have later : message ∈ messages := by
          rcases List.mem_cons.mp member with rfl | later
          · omega
          · exact later
        have tail := ih rest later fun other among => clear other (List.mem_cons_of_mem _ among)
        have sooner : head.mark.offset ≤ message.mark.offset := by omega
        by_cases taken : low < head.mark.offset
        · rw [List.filter_cons_of_pos (by simp [taken, sooner]),
            List.filter_cons_of_pos (by simp [taken, within]), tail]
          rfl
        · rw [List.filter_cons_of_neg (by simp [taken]), List.filter_cons_of_neg (by simp [taken]),
            tail]
      · have same : message = head := by
          rcases List.mem_cons.mp member with same | later
          · exact same
          · have before := first message later
            have after := clear head List.mem_cons_self (by omega)
            omega
        subst same
        have nothing : ∀ limit : Int, limit ≤ message.mark.offset →
            (messages.filter fun other => decide (low < other.mark.offset) &&
              decide (other.mark.offset ≤ limit)) = [] := by
          intro limit bound
          apply List.filter_eq_nil_iff.mpr
          intro other among
          have after := first other among
          rw [Bool.and_eq_true_iff, decide_eq_true_eq, decide_eq_true_eq]
          omega
        rw [List.filter_cons_of_pos (by simp; omega), List.filter_cons_of_neg (by simp; omega),
          nothing _ (Int.le_refl _), nothing _ (Int.le_of_lt past)]
        rfl

/-- The next message extends what was accounted for by itself. -/
theorem between_snoc {partition low reached : Int} {message : KafkaMessage}
    (member : message ∈ topic.messages partition) (above : low ≤ reached)
    (past : reached < message.mark.offset)
    (clear : topic.Clear partition reached message.mark.offset) :
    topic.between partition low message.mark.offset =
      topic.between partition low reached ++ [message] :=
  filter_snoc (topic.ordered partition) member above past clear

end Topic

end Ddi.Kafka
