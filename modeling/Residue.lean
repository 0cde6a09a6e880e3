import Residue.Basic
import Residue.Policy
import Residue.Bulk
import Residue.Dispatcher
import Residue.Drain
import Residue.Admission
import Residue.FastPath
import Residue.Schedule
import Residue.Refinement
import Residue.Lifecycle
import Residue.HttpClient
