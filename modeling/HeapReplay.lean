import HeapReplay.Main
import HeapReplay.Dump.Outline
import HeapReplay.Dump.Printer
import HeapReplay.Graph.History
import HeapReplay.Graph.Reach
import HeapReplay.Script.Execution
import HeapReplay.Proofs.Indexing
import HeapReplay.Proofs.Searching
import HeapReplay.Proofs.LineReading
import HeapReplay.Proofs.Running
import HeapReplay.Proofs.ReaderSteps
import HeapReplay.Proofs.Rebuilding
import HeapReplay.Proofs.Reproducing
import HeapReplay.Proofs.Grammar
import HeapReplay.Proofs.Accepting
import HeapReplay.Proofs.Noninterference
import HeapReplay.Proofs.Printing
import HeapReplay.Proofs.RoundTrip
import HeapReplay.Proofs.Garbage
import HeapReplay.Proofs.Escaping
import HeapReplay.Proofs.Completing
import HeapReplay.Proofs.Delivering
import HeapReplay.Proofs.Determining
import HeapReplay.Proofs.Decoding
import HeapReplay.Proofs.Storing
import HeapReplay.Proofs.Chunking
import HeapReplay.Proofs.Interrupting
import HeapReplay.Proofs.Rearranging
import HeapReplay.Proofs.Refusing
import HeapReplay.Proofs.Shaping
import HeapReplay.Proofs.Interning
import HeapReplay.Proofs.Naming
import HeapReplay.Proofs.Renaming
import HeapReplay.Proofs.Recognizing
import HeapReplay.Proofs.Writing
import HeapReplay.Proofs.Counting
import HeapReplay.Proofs.Ending
