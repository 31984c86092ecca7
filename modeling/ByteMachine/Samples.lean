import ByteMachine.Assembly.Program

/-!
# Sample programs

Four small programs in source form: a sum, a loop that counts down, a factorial,
and a reversal through the stack.
-/

namespace ByteMachine

/-- A program that comes with the library. -/
structure Sample where
  name : String
  source : String
  deriving DecidableEq, Repr

namespace Sample

/-- Add two numbers and print the sum. -/
def sum : Sample where
  name := "sum"
  source := "
; 5 + 3, printed
    LOAD r0, 5
    LOAD r1, 3
    ADD  r0, r1, r2
    PRINT r2
    HALT
"

/-- Print the numbers from three down to one. -/
def countdown : Sample where
  name := "countdown"
  source := "
; Print 3, 2, 1
    LOAD r0, 3
    LOAD r1, 1
loop:
    JZ   r0, done
    PRINT r0
    SUB  r0, r1, r0
    JMP  loop
done:
    HALT
"

/-- Print the factorial of five. -/
def factorial : Sample where
  name := "factorial"
  source := "
; 5! = 120
    LOAD r0, 5          ; n
    LOAD r1, 1          ; accumulator
    LOAD r2, 1
loop:
    JZ   r0, done
    MUL  r1, r0, r1
    SUB  r0, r2, r0
    JMP  loop
done:
    PRINT r1
    HALT
"

/-- Print three values in the reverse of the order in which they were pushed. -/
def reverse : Sample where
  name := "reverse"
  source := "
; Reverse three values through the stack
    LOAD r0, 1
    LOAD r1, 2
    LOAD r2, 3
    PUSH r0
    PUSH r1
    PUSH r2
    POP  r3
    PRINT r3
    POP  r4
    PRINT r4
    POP  r5
    PRINT r5
    HALT
"

def all : List Sample :=
  [sum, countdown, factorial, reverse]

def find? (name : String) : Option Sample :=
  all.find? fun sample => sample.name = name

end Sample
end ByteMachine
