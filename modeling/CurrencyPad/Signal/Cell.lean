/-!
# Cells

A cell holds the latest value of something that changes. Listeners are told of
every change, in the order in which they were registered; one listener may be
registered several times. Waiters are told of the first value that is set after
they began to wait.
-/

namespace CurrencyPad

/-- A value that changes, with those who want to know of it. -/
structure Cell (α ι κ : Type) where
  value : Option α
  listeners : List ι
  waiters : List κ
deriving Repr

namespace Cell

variable {α ι κ : Type}

def new (value : Option α) : Cell α ι κ :=
  ⟨value, [], []⟩

/-- The cell after a value is set; none if it holds an equal value already. All
waiters are let go. -/
def change? [BEq α] (cell : Cell α ι κ) (value : α) : Option (Cell α ι κ) :=
  if cell.value.any (· == value) then none
  else some { cell with value := some value, waiters := [] }

/-- The cell with one more listener, which is told after all others. -/
def register (cell : Cell α ι κ) (listener : ι) : Cell α ι κ :=
  { cell with listeners := cell.listeners ++ [listener] }

/-- The cell with one registration of a listener less: the first, if there is
one. -/
def unregister [BEq ι] (cell : Cell α ι κ) (listener : ι) : Cell α ι κ :=
  { cell with listeners := cell.listeners.erase listener }

def await (cell : Cell α ι κ) (waiter : κ) : Cell α ι κ :=
  { cell with waiters := cell.waiters ++ [waiter] }

def forget [BEq κ] (cell : Cell α ι κ) (waiter : κ) : Cell α ι κ :=
  { cell with waiters := cell.waiters.erase waiter }

end Cell

end CurrencyPad
