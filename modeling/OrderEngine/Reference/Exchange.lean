import Mathlib.Data.Bool.Count
import OrderEngine.Construction.MatchingEngine
import OrderEngine.Refinement.Reports

namespace OrderEngine

namespace OrderBook

theorem run_run (book : OrderBook) (past later : List Call) : (book.run past).run later = book.run (past ++ later) :=
  List.foldl_append.symm

/-- A run keeps the reports that were made before it. -/
theorem run_keeps_reports (book : OrderBook) (calls : List Call) : book.reports <+: (book.run calls).reports := by
  induction calls generalizing book with
  | nil => exact List.prefix_rfl
  | cons call calls ih => exact (book.call_keeps_reports call).trans (ih (book.call call).2)

end OrderBook

/-- An exchange has two bounded queues and does one of these things at a time. -/
inductive Deed where
  | refuse
  | submit (msg : OrderMessage)
  | take
  | perform
  | emit
  | receive

/-- The exchange remembers the answers and the accepted messages, the messages that reached the book, the
reports with the word whether each found room, and the reports that were received. -/
structure Exchange where
  inbound : List OrderMessage := []
  current : Option OrderMessage := none
  book : OrderBook
  unsent : List TradeReport := []
  outbound : List TradeReport := []
  answers : List Bool := []
  accepted : List OrderMessage := []
  performed : List OrderMessage := []
  emitted : List (TradeReport × Bool) := []
  received : List TradeReport := []

namespace Exchange

def init (clock : Nat → Nanos) : Exchange where
  book := .empty true clock

def offer (exchange : Exchange) (msg : OrderMessage) : Exchange :=
  if exchange.inbound.length + 1 < kInboundQueueSize then
    { exchange with
      inbound := exchange.inbound ++ [msg]
      answers := exchange.answers ++ [true]
      accepted := exchange.accepted ++ [msg] }
  else { exchange with answers := exchange.answers ++ [false] }

def take (exchange : Exchange) : Exchange :=
  match exchange.current, exchange.inbound with
  | none, msg :: rest => { exchange with current := some msg, inbound := rest }
  | _, _ => exchange

def perform (exchange : Exchange) : Exchange :=
  match exchange.current, exchange.unsent with
  | some msg, [] =>
      let book := exchange.book.run msg.route.toList
      { exchange with
        current := none
        book := book
        unsent := book.reports.drop exchange.book.reports.length
        performed := exchange.performed ++ [msg] }
  | _, _ => exchange

def emit (exchange : Exchange) : Exchange :=
  match exchange.unsent with
  | [] => exchange
  | report :: rest =>
      let room : Bool := exchange.outbound.length + 1 < kOutboundQueueSize
      { exchange with
        unsent := rest
        outbound := exchange.outbound ++ if room then [report] else []
        emitted := exchange.emitted ++ [(report, room)] }

def receive (exchange : Exchange) : Exchange :=
  match exchange.outbound with
  | [] => exchange
  | report :: rest => { exchange with outbound := rest, received := exchange.received ++ [report] }

def step (exchange : Exchange) : Deed → Exchange
  | .refuse => { exchange with answers := exchange.answers ++ [false] }
  | .submit msg => exchange.offer msg
  | .take => exchange.take
  | .perform => exchange.perform
  | .emit => exchange.emit
  | .receive => exchange.receive

/-- Every message and every report is in exactly one place, in order, and the book is the one that the
performed messages make of an empty book. -/
structure Inv (clock : Nat → Nanos) (exchange : Exchange) : Prop where
  messages : exchange.performed ++ exchange.current.toList ++ exchange.inbound = exchange.accepted
  counted : exchange.answers.count true = exchange.accepted.length
  book : exchange.book = (OrderBook.empty true clock).run (exchange.performed.filterMap OrderMessage.route)
  reports : exchange.emitted.map Prod.fst ++ exchange.unsent = exchange.book.reports
  delivered : exchange.received ++ exchange.outbound = (exchange.emitted.filter Prod.snd).map Prod.fst
  inboundBound : exchange.inbound.length < kInboundQueueSize
  outboundBound : exchange.outbound.length < kOutboundQueueSize

namespace Inv

variable {clock : Nat → Nanos} {exchange : Exchange}

theorem init (clock : Nat → Nanos) : (Exchange.init clock).Inv clock where
  messages := rfl
  counted := rfl
  book := rfl
  reports := rfl
  delivered := rfl
  inboundBound := Nat.two_pow_pos 16
  outboundBound := Nat.two_pow_pos 16

variable (inv : exchange.Inv clock)

include inv

theorem offer (msg : OrderMessage) : (exchange.offer msg).Inv clock := by
  unfold Exchange.offer
  split
  · next room =>
      exact { inv with
        messages := by
          show _ ++ (exchange.inbound ++ [msg]) = exchange.accepted ++ [msg]
          rw [← inv.messages, List.append_assoc _ exchange.inbound]
        counted := by
          rw [List.count_append, inv.counted, List.length_append]
          rfl
        inboundBound := by
          rw [List.length_append]
          exact room }
  · exact { inv with
      counted := by
        rw [List.count_append, inv.counted]
        rfl }

theorem take : exchange.take.Inv clock := by
  unfold Exchange.take
  split
  · next msg rest idle waiting =>
      have messages := inv.messages
      have bound := inv.inboundBound
      rw [idle, waiting] at messages
      rw [waiting, List.length_cons] at bound
      exact { inv with
        messages := by
          rw [← messages]
          simp
        inboundBound := by
          show rest.length < kInboundQueueSize
          omega }
  · exact inv

/-- A message reaches the book behind the earlier ones, and the book keeps its earlier reports. -/
theorem perform : exchange.perform.Inv clock := by
  unfold Exchange.perform
  split
  · next msg current sent =>
      have messages := inv.messages
      have reports := inv.reports
      rw [current] at messages
      rw [sent, List.append_nil] at reports
      exact { inv with
        messages := by
          rw [← messages]
          simp
        book := by
          show exchange.book.run msg.route.toList =
            (OrderBook.empty true clock).run ((exchange.performed ++ [msg]).filterMap OrderMessage.route)
          rw [inv.book, OrderBook.run_run, List.filterMap_append]
          cases route : msg.route with
          | none => simp [route]
          | some call => simp [route]
        reports := by
          rw [reports]
          exact (List.prefix_append_drop (exchange.book.run_keeps_reports msg.route.toList)).symm }
  · exact inv

/-- A report that finds room is delivered behind the earlier ones. -/
theorem emit : exchange.emit.Inv clock := by
  unfold Exchange.emit
  split
  · exact inv
  · next report rest waiting =>
      have reports := inv.reports
      rw [waiting] at reports
      by_cases room : exchange.outbound.length + 1 < kOutboundQueueSize
      · exact { inv with
          reports := by
            rw [← reports, List.map_append, List.append_assoc]
            rfl
          delivered := by
            simp only [room, decide_true, if_true, List.filter_append, List.map_append, ← inv.delivered]
            simp
          outboundBound := by
            simp only [room, decide_true, if_true, List.length_append]
            exact room }
      · exact { inv with
          reports := by
            rw [← reports, List.map_append, List.append_assoc]
            rfl
          delivered := by
            simp only [room, decide_false, Bool.false_eq_true, if_false, List.append_nil, List.filter_append,
              List.map_append, ← inv.delivered]
            simp
          outboundBound := by
            simp only [room, decide_false, Bool.false_eq_true, if_false, List.append_nil]
            exact inv.outboundBound }

theorem receive : exchange.receive.Inv clock := by
  unfold Exchange.receive
  split
  · exact inv
  · next report rest waiting =>
      have delivered := inv.delivered
      have bound := inv.outboundBound
      rw [waiting] at delivered
      rw [waiting, List.length_cons] at bound
      exact { inv with
        delivered := by
          rw [← delivered, List.append_assoc]
          rfl
        outboundBound := by
          show rest.length < kOutboundQueueSize
          omega }

theorem step (deed : Deed) : (exchange.step deed).Inv clock := by
  cases deed with
  | refuse =>
      exact { inv with
        counted := by
          show (exchange.answers ++ [false]).count true = _
          rw [List.count_append, inv.counted]
          rfl }
  | submit msg => exact inv.offer msg
  | take => exact inv.take
  | perform => exact inv.perform
  | emit => exact inv.emit
  | receive => exact inv.receive

end Inv

end Exchange

end OrderEngine
