/-!
# How programs end

A program ends with a status of its own or by a signal. A signal has a number, a
name, and words that tell its effect.
-/
namespace Docset.Program

inductive Exit where
  | status (code : Nat)
  | signal (number : Nat)
  deriving DecidableEq, Repr

/-- The signals with their names, and what is said about a program that one of them ended. -/
def signals : List (Nat × String × String) :=
  [(1, "HUP", "Hangup"), (2, "INT", "Interrupt"), (3, "QUIT", "Quit"),
    (4, "ILL", "Illegal instruction"), (5, "TRAP", "Trace/breakpoint trap"), (6, "ABRT", "Aborted"),
    (7, "BUS", "Bus error"), (8, "FPE", "Floating point exception"), (9, "KILL", "Killed"),
    (10, "USR1", "User defined signal 1"), (11, "SEGV", "Segmentation fault"),
    (12, "USR2", "User defined signal 2"), (13, "PIPE", "Broken pipe"), (14, "ALRM", "Alarm clock"),
    (15, "TERM", "Terminated"), (16, "STKFLT", "Stack fault"), (17, "CHLD", "Child exited"),
    (18, "CONT", "Continued"), (19, "STOP", "Stopped (signal)"), (20, "TSTP", "Stopped"),
    (21, "TTIN", "Stopped (tty input)"), (22, "TTOU", "Stopped (tty output)"),
    (23, "URG", "Urgent I/O condition"), (24, "XCPU", "CPU time limit exceeded"),
    (25, "XFSZ", "File size limit exceeded"), (26, "VTALRM", "Virtual timer expired"),
    (27, "PROF", "Profiling timer expired"), (28, "WINCH", "Window changed"),
    (29, "IO", "I/O possible"), (30, "PWR", "Power failure"), (31, "SYS", "Bad system call")]

/-- Signals that do nothing unless something is made of them. -/
def idleSignals : List Nat := [17, 18, 23, 28]

def signalName? (number : Nat) : Option String := (signals.lookup number).map (·.1)

/-- What is said about a program that a signal ended. -/
def signalEffect (number : Nat) : String :=
  match signals.lookup number with
  | some (_, effect) => effect
  | none => "Real-time signal " ++ toString (number - 34)

/-- How an end is told. -/
def Exit.message : Exit → String
  | status code => "exit status: " ++ toString code
  | signal number =>
      "signal: " ++ toString number ++
        match signalName? number with
        | some name => " (SIG" ++ name ++ ")"
        | none => ""

/-- The status that a shell gives an end. -/
def Exit.code : Exit → Nat
  | status code => code
  | signal number => 128 + number

end Docset.Program
