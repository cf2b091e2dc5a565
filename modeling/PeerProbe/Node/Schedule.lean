import PeerProbe.Node.Step

/-!
# One schedule of a node

Tasks that can go on wait in a queue, first come first served. A task at the front runs until it
has to wait; whatever its steps make possible for others queues up behind. Listeners to the feed
queue up in the order of their subscriptions, other tasks in the order in which they began. When
the queue is empty the clock may go on to the next time that a task waits for; tasks that wait for
the same time go on in the order in which they began to wait. A task that gives up what it waited
for and begins anew counts from then.
-/

namespace PeerProbe

/-- A time that a task waits for, how often the task had begun to wait anew by then, and the
alarm's place among all alarms. -/
structure Alarm where
  task : Task
  due : Nat
  renewal : Nat
  order : Nat
  deriving DecidableEq

/-- A node with the tasks it has in the order in which they began, the queue, and the alarms. -/
structure Schedule (σ : Type) where
  node : Node σ
  tasks : List Task
  queue : List Task
  alarms : List Alarm
  alarmCount : Nat

namespace Schedule

variable {σ : Type} [Transport σ]

/-- Nothing runs yet. -/
def ofNode (node : Node σ) : Schedule σ := ⟨node, [], [], [], 0⟩

/-- All tasks of a node. -/
def allTasks (n : Node σ) : List Task :=
  (List.range n.attempts.length).flatMap (fun i => [.attempt i, .watcher i]) ++
  (List.range n.watches.length).map .openWatch ++ (List.range n.held.length).map .held ++
  (List.range n.calls.length).map .call ++
  (List.range (Transport.backgroundCount n.transport)).map .background

/-- The tasks that have begun since. There are none when all tasks are as many as before. -/
def begun (s : Schedule σ) : List Task :=
  let all := allTasks s.node
  if all.length = s.tasks.length then [] else all.filter fun t => !s.tasks.contains t

/-- Whether a task should queue: it can go on, does not queue yet and is not the one running. -/
def shouldQueue (s : Schedule σ) (running : Option Task) (t : Task) : Bool :=
  decide (some t ≠ running) && !s.queue.contains t && (s.node.step? t).isSome

/-- The place of a task among those that can go on at once: listeners by their subscriptions, after
everyone else. -/
def rank (n : Node σ) (t : Task) : Nat :=
  match n.subscription? t with
  | some i => i + 1
  | none => 0

/-- Put a task behind those of no higher rank. -/
def insertByRank (n : Node σ) (t : Task) : List Task → List Task
  | [] => [t]
  | u :: rest => if rank n t < rank n u then t :: u :: rest else u :: insertByRank n t rest

/-- Tasks by rank; those of one rank stay in order. -/
def byRank (n : Node σ) (ts : List Task) : List Task :=
  ts.foldl (fun sorted t => insertByRank n t sorted) []

/-- Queue the tasks that have begun and those that can go on. -/
def wake (s : Schedule σ) (running : Option Task) : Schedule σ :=
  let (late, early) := s.begun.partition s.node.beganBehind
  let woken := byRank s.node (s.tasks.filter (s.shouldQueue running))
  { s with tasks := s.tasks ++ s.begun, queue := s.queue ++ early ++ woken ++ late }

/-- Put a node in place of the current one. -/
def withNode (s : Schedule σ) (n : Node σ) : Schedule σ := { s with node := n }

/-- Set the alarms of a task that waits; those it has set already for the same wait stay. -/
def setAlarms (s : Schedule σ) (task : Task) : Schedule σ :=
  let dues := (s.node.dues task).filter (s.node.now < ·)
  let renewal := s.node.renewals task
  let kept := s.alarms.filter fun a =>
    a.task ≠ task || (a.renewal = renewal && dues.contains a.due)
  let fresh := dues.eraseDups.filter fun d => !kept.any fun a => a.task = task && a.due = d
  { s with
    alarms := kept ++ fresh.zipIdx.map fun (d, i) => ⟨task, d, renewal, s.alarmCount + i⟩
    alarmCount := s.alarmCount + fresh.length }

/-- Run one task until it has to wait. -/
def runTask (task : Task) : Nat → Schedule σ → Schedule σ
  | 0, s => s
  | fuel + 1, s =>
    match s.node.step? task with
    | none => s.setAlarms task
    | some n => runTask task fuel ((s.withNode n).wake (some task))

/-- A bound on the steps of anything that runs here. -/
def fuel : Nat := 1000000

/-- Run everything that can go on without the clock. -/
def settle : Nat → Schedule σ → Schedule σ
  | 0, s => s
  | n + 1, s =>
    match s.queue with
    | [] => s
    | task :: rest => settle n (runTask task fuel { s with queue := rest })

/-- Wake and run whatever can go on. -/
def settled (s : Schedule σ) : Schedule σ := (s.wake none).settle fuel

/-- The next time at which an alarm goes off, up to a limit. -/
def nextAlarm? (s : Schedule σ) (limit : Nat) : Option Nat :=
  ((s.alarms.map (·.due)).filter fun d => s.node.now < d && d ≤ limit).min?

/-- Alarms by age. -/
def byAge (as : List Alarm) : List Alarm := as.mergeSort fun a b => a.order ≤ b.order

/-- Let the clock go on to a time and queue the tasks whose alarms go off, the oldest alarm
first. -/
def ring (s : Schedule σ) (now : Nat) : Schedule σ :=
  let due := byAge (s.alarms.filter (·.due ≤ now))
  { s with
    node := { s.node with now }
    alarms := s.alarms.filter (now < ·.due)
    queue := (due.map (·.task)).eraseDups }

/-- Let the clock go on to a time, settling at every alarm on the way; `after` is applied to every
settled state. -/
def advance {α : Type} (limit : Nat) (after : Schedule σ → α → α) : Nat → Schedule σ → α →
    Schedule σ × α
  | 0, s, acc => (s, acc)
  | n + 1, s, acc =>
    match s.nextAlarm? limit with
    | none => (s.withNode { s.node with now := limit }, acc)
    | some t =>
      let s := (s.ring t).settle fuel
      advance limit after n s (after s acc)

end Schedule

end PeerProbe
