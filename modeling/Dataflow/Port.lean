set_option autoImplicit false

/- Addresses in a module. Functions, child graphs and nodes share one row of numbers; a port is a
node with a number from 1. -/
namespace Dataflow

abbrev NodeId := Nat

/-- The place of a type in the order of creation, which is never reused. -/
abbrev TypeId := Nat

structure Outlet where
  node : NodeId
  port : Nat
deriving DecidableEq

structure Inlet where
  node : NodeId
  port : Nat
deriving DecidableEq

inductive Port where
  | inlet (port : Inlet)
  | outlet (port : Outlet)
deriving DecidableEq

def Outlet.render (outlet : Outlet) : String :=
  toString outlet.node ++ "[" ++ toString outlet.port ++ "]"

def Inlet.render (inlet : Inlet) : String :=
  toString inlet.node ++ "(" ++ toString inlet.port ++ ")"

def Port.render : Port → String
  | .inlet port => port.render
  | .outlet port => port.render

end Dataflow
