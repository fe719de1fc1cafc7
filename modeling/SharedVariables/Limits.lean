import SharedVariables.Duration

/-! Bounds and waiting times that broker and clients share. -/
namespace SharedVariables.Limits

def defaultPort : UInt16 := 16366
def defaultHost : String := "127.0.0.1"

/-- Largest payload of a frame, in bytes. -/
def frameSize : Nat := 16777216

/-- Largest name of a variable, in code points. -/
def nameLength : Nat := 64

/-- Largest string field, in bytes. -/
def stringField : Nat := 65535

def pollInterval : Duration := .ofMillis 50
def accessTimeout : Duration := .ofSecs 10

/-- Attempts at an access are counted in four bytes. -/
def lastAttempt : Nat := 4294967295

def remarkAfterAttempts : Nat := 20

def replyTimeout : Duration := .ofSecs 10
def connectTimeout : Duration := .ofSecs 5

/-- How long the rest of a frame may take once its length is known. -/
def frameReadTimeout : Duration := .ofSecs 5

def connections : Nat := 256

def eventQueue : Nat := 1024

def outboundQueue : Nat := 256

end SharedVariables.Limits
